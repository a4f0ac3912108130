import NanoClr.Scheduling.SignalPasses

/-!
# The runs of waits and signals

Whatever threads wait, signal, are suspended, resumed and run out of time: where
a signal comes to no thread that it has restarted before, it returns, and wakes
the threads that wait for it.
-/

namespace NanoClr

namespace Scheduling

namespace WaitingEngine

/-! ## What a signal does -/

/-- A thread that waits for objects and has not been restarted. -/
def IsWaiter (waiting : WaitingEngine) (th : Nat) : Prop :=
  th ∈ waiting.engine.m_threadsWaiting ∧
    (waiting.engine.threads th).m_status = .TH_S_Waiting ∧
    waiting.m_waitForObject th ≠ none

/-- The threads that a signal wakes: none twice, only threads that waited, one
at most where the object is an automatic one, and all whose waits are
satisfied. -/
structure Wakes (waiting : WaitingEngine) (object : Nat) (later : WaitingEngine)
    (woken : List Nat) : Prop where
  once : woken.Nodup
  waiters : ∀ th ∈ woken, waiting.IsWaiter th ∧ ¬ later.IsWaiter th
  others : ∀ th ∉ woken, waiting.IsWaiter th → later.IsWaiter th
  single : waiting.HB_SignalAutoReset object = true → woken.length ≤ 1
  manual : waiting.HB_SignalAutoReset object = false →
    later.HB_Signaled object = true
  complete : ∀ th wait, later.IsWaiter th →
    later.m_waitForObject th = some wait →
      ¬ Satisfied later.HB_Signaled wait.m_objects wait.m_fWaitAll

/-- A signal returns and wakes its threads. -/
def SignalSound (waiting : WaitingEngine) (object : Nat) : Prop :=
  (∃ later woken, waiting.Signals object later woken) ∧
    ∀ later woken, waiting.Signals object later woken →
      waiting.Wakes object later woken

/-! ## The condition -/

/-- Of the threads that a signal comes to and whose waits are satisfied, none has
been restarted before, and none is suspended, unless it is the last one. -/
def Clean (waiting : WaitingEngine) (object : Nat) : Bool :=
  waiting.passesOnce object (Function.update waiting.HB_Signaled object true)
    waiting.engine.m_threadsWaiting

/-- The condition of a call. -/
def CleanCall (waiting : WaitingEngine) : WaitCall → Bool
  | .signalObject object => waiting.Clean object
  | _ => true

/-! ## The invariant -/

/-- No thread waits whose wait is satisfied. -/
def Quiet (waiting : WaitingEngine) : Prop :=
  ∀ th wait, (waiting.engine.threads th).m_status = .TH_S_Waiting →
    waiting.m_waitForObject th = some wait →
      ¬ Satisfied waiting.HB_Signaled wait.m_objects wait.m_fWaitAll

/-- The threads that wait are listed, and their waits are not satisfied. -/
structure Kept (waiting : WaitingEngine) : Prop where
  listed : Listed waiting
  quiet : waiting.Quiet

variable
  {waiting later : WaitingEngine}
  {th object : Nat}
  {change : CLR_RT_Thread → CLR_RT_Thread}

/-- Fewer signals satisfy no more waits. -/
theorem Quiet.fewer
    {m_waitForObject_Result : Nat → WaitResult}
    {HB_Signaled : Nat → Bool}
    (quiet : waiting.Quiet)
    (fewer : ∀ obj, HB_Signaled obj = true → waiting.HB_Signaled obj = true) :
    Quiet { waiting with m_waitForObject_Result, HB_Signaled } :=
  fun other wait waits some_ satisfied =>
    quiet other wait waits some_ (satisfied.mono fewer)

theorem Quiet.changed
    (others : ∀ other ≠ th, ∀ wait,
      (waiting.engine.threads other).m_status = .TH_S_Waiting →
        waiting.m_waitForObject other = some wait →
          ¬ Satisfied waiting.HB_Signaled wait.m_objects wait.m_fWaitAll)
    (self : ∀ wait,
      (change (waiting.engine.threads th)).m_status = .TH_S_Waiting →
        waiting.m_waitForObject th = some wait →
          ¬ Satisfied waiting.HB_Signaled wait.m_objects wait.m_fWaitAll)
    (unstarted : (change (waiting.engine.threads th)).m_status =
      .TH_S_Unstarted → waiting.m_waitForObject th = none) :
    (waiting.change th change).Quiet := by
  intro other wait waits some_
  by_cases same : other = th
  · subst same
    rw [change_wait unstarted] at some_
    split at some_
    · rename_i stays
      have alive : (change (waiting.engine.threads other)).m_status ≠
          .TH_S_Terminated := by
        intro terminated
        rw [CLR_RT_Thread.staysWaiting, terminated] at stays
        cases stays
      rw [change_thread alive] at waits
      exact self wait waits some_
    · cases some_
  · rw [change_threads_of_ne same] at waits
    rw [change_wait_of_ne same] at some_
    exact others other same wait waits some_

/-- A change of a thread keeps the invariant where the thread does not come to
wait. -/
theorem Kept.changed
    (kept : waiting.Kept)
    (self : ∀ wait,
      (change (waiting.engine.threads th)).m_status = .TH_S_Waiting →
        waiting.m_waitForObject th = some wait →
          (waiting.engine.threads th).m_status = .TH_S_Waiting)
    (unstarted : (change (waiting.engine.threads th)).m_status =
      .TH_S_Unstarted → waiting.m_waitForObject th = none) :
    (waiting.change th change).Kept where
  listed := Listed.changed kept.listed.nodup
    (fun other _ wait some_ => ⟨kept.listed.listed other wait some_,
      kept.listed.waits other wait some_⟩) unstarted
  quiet := Quiet.changed (fun other _ wait => kept.quiet other wait)
    (fun wait waits some_ => kept.quiet th wait (self wait waits some_) some_)
    unstarted

/-! ## Calls -/

theorem PutInProperList_eq :
    waiting.PutInProperList th = waiting.change th fun thread => thread := by
  have same : waiting.engine.modifyThread th (fun thread => thread) =
      waiting.engine := by
    rw [CLR_RT_ExecutionEngine.modifyThread, Function.update_eq_self]
  rw [WaitingEngine.change, same]

theorem Kept.Restart (kept : waiting.Kept) : (waiting.Restart th).Kept := by
  apply kept.changed
  · intro wait waits
    cases waits
  · intro unstarted
    cases unstarted

/-- A thread whose node waits for nothing. -/
theorem Kept.NewThread
    {priority : Int}
    {system : Bool}
    (kept : waiting.Kept) :
    (waiting.NewThread th priority system).Kept := by
  have fresh : Kept { waiting with
      engine := waiting.engine.modifyThread th fun _ => {
        m_status := .TH_S_Unstarted
        suspended := false
        system
        m_executionCounter := 0
        m_priority := priority }
      m_waitForObject := Function.update waiting.m_waitForObject th none } := by
    have other {thread : Nat} {wait : CLR_RT_HeapBlock_WaitForObject}
        (some_ : Function.update waiting.m_waitForObject th none thread =
          some wait) :
        thread ≠ th ∧ waiting.m_waitForObject thread = some wait := by
      by_cases same : thread = th
      · rw [same, Function.update_self] at some_
        cases some_
      · rw [Function.update_of_ne same] at some_
        exact ⟨same, some_⟩
    refine ⟨⟨kept.listed.nodup, ?_, ?_⟩, ?_⟩
    · intro thread wait some_
      exact kept.listed.listed thread wait (other some_).2
    · intro thread wait some_
      obtain ⟨different, some_⟩ := other some_
      refine Eq.trans (congrArg CLR_RT_Thread.staysWaiting ?_)
        (kept.listed.waits thread wait some_)
      exact Function.update_of_ne different _ _
    · intro thread wait waits some_
      obtain ⟨different, some_⟩ := other some_
      refine kept.quiet thread wait (Eq.trans ?_ waits) some_
      exact congrArg CLR_RT_Thread.m_status
        (Function.update_of_ne different _ _).symm
  rw [WaitingEngine.NewThread, PutInProperList_eq]
  apply Kept.changed (Kept.Restart fresh)
  · exact fun _ waits _ => waits
  · exact (Kept.Restart fresh).listed.unstarted

theorem Kept.Sleep
    (kept : waiting.Kept)
    (runs : waiting.Runs th) :
    (waiting.Sleep th).Kept := by
  apply kept.changed
  · intro wait _ some_
    rw [kept.listed.runs runs] at some_
    cases some_
  · intro unstarted
    cases unstarted

theorem Kept.Suspend (kept : waiting.Kept) : (waiting.Suspend th).Kept := by
  rw [WaitingEngine.Suspend]
  split
  · exact kept.changed (fun _ waits _ => waits) kept.listed.unstarted
  · exact kept

theorem Kept.Resume (kept : waiting.Kept) : (waiting.Resume th).Kept := by
  rw [WaitingEngine.Resume]
  split
  · exact kept.changed (fun _ waits _ => waits) kept.listed.unstarted
  · exact kept

theorem Kept.Terminate (kept : waiting.Kept) : (waiting.Terminate th).Kept := by
  apply kept.changed
  · intro wait waits
    cases waits
  · intro unstarted
    cases unstarted

theorem Kept.Reset (kept : waiting.Kept) : (waiting.Reset object).Kept := by
  refine ⟨kept.listed.sameLists, kept.quiet.fewer ?_⟩
  intro obj signaled
  by_cases same : obj = object
  · rw [same, Function.update_self] at signaled
    cases signaled
  · rwa [Function.update_of_ne same] at signaled

theorem Kept.CheckWait {now : Int} (kept : waiting.Kept) :
    (waiting.CheckWait th now).Kept := by
  rw [WaitingEngine.CheckWait]
  split
  · split
    · exact Kept.Restart
        ⟨kept.listed.sameLists, kept.quiet.fewer fun _ signaled => signaled⟩
    · exact kept
  · exact kept

/-- A thread comes to wait whose wait is not satisfied. -/
theorem Kept.CreateInstance
    {wait : CLR_RT_HeapBlock_WaitForObject}
    (kept : waiting.Kept)
    (unsatisfied :
      ¬ Satisfied waiting.HB_Signaled wait.m_objects wait.m_fWaitAll) :
    (waiting.CreateInstance th wait).Kept := by
  have other {thread : Nat} {wait' : CLR_RT_HeapBlock_WaitForObject}
      (different : thread ≠ th)
      (some_ : Function.update waiting.m_waitForObject th (some wait) thread =
        some wait') :
      waiting.m_waitForObject thread = some wait' :=
    (Function.update_of_ne different _ _).symm.trans some_
  rw [WaitingEngine.CreateInstance]
  constructor
  · refine Listed.changed kept.listed.nodup ?_ ?_
    · intro thread different wait' some_
      have some_ := other different some_
      exact ⟨kept.listed.listed thread wait' some_,
        kept.listed.waits thread wait' some_⟩
    · intro unstarted
      cases unstarted
  · refine Quiet.changed ?_ ?_ ?_
    · intro thread different wait' waits some_
      exact kept.quiet thread wait' waits (other different some_)
    · intro wait' _ some_
      have self := (Function.update_self th (some wait)
        waiting.m_waitForObject).symm.trans some_
      obtain rfl := Option.some.inj self
      exact unsatisfied
    · intro unstarted
      cases unstarted

theorem Kept.WaitForSignal
    {wait : CLR_RT_HeapBlock_WaitForObject}
    {granted : Bool}
    (kept : waiting.Kept) :
    (waiting.WaitForSignal th wait granted).Kept := by
  rw [WaitingEngine.WaitForSignal]
  split
  · exact kept
  split
  · rename_i tried
    exact ⟨kept.listed.sameLists,
      kept.quiet.fewer fun _ signaled => tryWaitForSignal_le tried signaled⟩
  rename_i fails
  split
  · exact kept.CreateInstance (tryWaitForSignal_eq_none.mp fails)
  · exact kept

/-! ## Signals -/

/-- Restarts keep the list. -/
theorem tryRestart_listed
    (listed : Listed waiting)
    (restarted : waiting.tryRestart th = some later) :
    Listed later := by
  cases tried : waiting.tries waiting.HB_Signaled th with
  | none =>
      rw [tryRestart_eq_none tried] at restarted
      cases restarted
  | some left =>
      obtain ⟨results, restarts⟩ := tryRestart_eq_some tried
      rw [restarts] at restarted
      obtain rfl := Option.some.inj restarted
      exact listed.sameLists.Restart

theorem signalFrom_listed
    {rounds : Nat}
    {current : Option Nat}
    {woken : List Nat}
    (listed : Listed waiting)
    (passes : signalFrom object rounds waiting current = some (later, woken)) :
    Listed later := by
  induction rounds generalizing waiting current woken with
  | zero =>
      cases current with
      | none =>
          rw [signalFrom] at passes
          obtain ⟨rfl, rfl⟩ := Prod.mk.inj (Option.some.inj passes)
          exact listed
      | some th => cases passes
  | succ rounds inductionHypothesis =>
      cases current with
      | none =>
          rw [signalFrom] at passes
          obtain ⟨rfl, rfl⟩ := Prod.mk.inj (Option.some.inj passes)
          exact listed
      | some th =>
          have restarted : Listed ((waiting.tryRestart th).getD waiting) := by
            cases restarts : waiting.tryRestart th with
            | none => exact listed
            | some next => exact tryRestart_listed listed restarts
          rw [signalFrom] at passes
          split at passes
          · obtain ⟨rest, goesOn, same⟩ := Option.map_eq_some_iff.mp passes
            obtain ⟨rfl, -⟩ := Prod.mk.inj same
            exact inductionHypothesis restarted goesOn
          · obtain ⟨rfl, -⟩ := Prod.mk.inj (Option.some.inj passes)
            exact restarted

/-- A pass that has come to its end is not changed by more rounds. -/
theorem signalFrom_more
    {rounds : Nat}
    {current : Option Nat}
    {result : WaitingEngine × List Nat}
    (passes : signalFrom object rounds waiting current = some result)
    (more : Nat) :
    signalFrom object (rounds + more) waiting current = some result := by
  induction rounds generalizing waiting current result with
  | zero =>
      cases current with
      | none =>
          rw [signalFrom] at passes ⊢
          exact passes
      | some th => cases passes
  | succ rounds inductionHypothesis =>
      cases current with
      | none =>
          rw [signalFrom] at passes ⊢
          exact passes
      | some th =>
          rw [Nat.add_right_comm, signalFrom]
          rw [signalFrom] at passes
          split at passes
          · rename_i signaled
            obtain ⟨rest, goesOn, rfl⟩ := Option.map_eq_some_iff.mp passes
            rw [if_pos signaled, inductionHypothesis goesOn]
            rfl
          · rename_i reset
            rw [if_neg reset]
            exact passes

theorem Signals.unique
    {later' : WaitingEngine}
    {woken woken' : List Nat}
    (signals : waiting.Signals object later woken)
    (signals' : waiting.Signals object later' woken') :
    later = later' ∧ woken = woken' := by
  obtain ⟨rounds, passes⟩ := signals
  obtain ⟨rounds', passes'⟩ := signals'
  have first := signalFrom_more passes rounds'
  have second := signalFrom_more passes' rounds
  rw [Nat.add_comm, first] at second
  exact Prod.mk.inj (Option.some.inj second)

/-- A clean signal returns, having passed over the waiting threads. -/
theorem Clean.passes
    (listed : Listed waiting)
    (clean : waiting.Clean object = true) :
    ∃ later woken, waiting.Signals object later woken ∧
      Passed object (waiting.setSignaled object) later
        waiting.engine.m_threadsWaiting woken := by
  have once : (waiting.setSignaled object).passesOnce object
      (waiting.setSignaled object).HB_Signaled
      waiting.engine.m_threadsWaiting = waiting.Clean object :=
    passesOnce_congr (fun _ _ => ⟨rfl, rfl⟩) rfl
  obtain ⟨later, woken, passes, passed⟩ :=
    @signalFrom_passes (waiting.setSignaled object) object
      waiting.engine.m_threadsWaiting [] rfl listed.nodup
      (Function.update_self _ _ _) (once.trans clean)
  exact ⟨later, woken, ⟨_, passes⟩, passed⟩

/-- No wait is satisfied behind a pass. -/
theorem Passed.quiet
    {woken : List Nat}
    (kept : waiting.Kept)
    (passed : Passed object (waiting.setSignaled object) later
      waiting.engine.m_threadsWaiting woken) :
    later.Quiet := by
  intro other wait waits some_ satisfied
  by_cases awake : other ∈ woken
  · rw [passed.awake other awake] at waits
    cases waits
  · obtain ⟨sameThread, sameWait⟩ := passed.others other awake
    rw [sameThread] at waits
    rw [sameWait] at some_
    cases signaled : later.HB_Signaled object with
    | true =>
        exact passed.complete signaled other
          (kept.listed.listed other wait some_) awake wait some_ satisfied
    | false =>
        refine kept.quiet other wait waits some_ (satisfied.mono ?_)
        intro obj isSignaled
        have different : obj ≠ object := by
          rintro rfl
          rw [signaled] at isSignaled
          cases isSignaled
        exact (Function.update_of_ne different _ _).symm.trans
          (passed.fewer obj isSignaled)

/-- A pass wakes the threads that it is to wake. -/
theorem Passed.wakes
    {woken : List Nat}
    (kept : waiting.Kept)
    (listed : Listed later)
    (passed : Passed object (waiting.setSignaled object) later
      waiting.engine.m_threadsWaiting woken) :
    waiting.Wakes object later woken where
  once := passed.sublist.nodup kept.listed.nodup
  waiters := by
    intro other member
    have inList := passed.sublist.subset member
    refine ⟨⟨inList, passed.waited other member⟩, fun waiter => ?_⟩
    have waits := waiter.2.1
    rw [passed.awake other member] at waits
    cases waits
  others := by
    intro other asleep waiter
    obtain ⟨sameThread, sameWait⟩ := passed.others other asleep
    obtain ⟨wait, some_⟩ := Option.ne_none_iff_exists'.mp waiter.2.2
    have some_' : later.m_waitForObject other = some wait :=
      sameWait.trans some_
    refine ⟨listed.listed other wait some_', ?_, ?_⟩
    · rw [sameThread]
      exact waiter.2.1
    · rw [sameWait]
      exact waiter.2.2
  single := by
    intro automatic
    refine passed.single automatic ?_
    intro other _ waits wait some_ satisfied
    refine kept.quiet other wait waits some_ (satisfied.mono ?_)
    intro obj signaled
    have different : obj ≠ object := by
      rintro rfl
      rw [Function.update_self] at signaled
      cases signaled
    rw [Function.update_of_ne different] at signaled
    exact (Function.update_of_ne different _ _).symm.trans signaled
  manual := fun manual =>
    (passed.manual manual).trans (Function.update_self _ _ _)
  complete := fun other wait waiter some_ =>
    passed.quiet kept other wait waiter.2.1 some_

/-- A clean signal is sound and keeps the invariant. -/
theorem Clean.sound
    (kept : waiting.Kept)
    (clean : waiting.Clean object = true) :
    waiting.SignalSound object ∧
      ∀ later woken, waiting.Signals object later woken → later.Kept := by
  obtain ⟨later, woken, signals, passed⟩ := Clean.passes kept.listed clean
  have listed : Listed later := by
    obtain ⟨rounds, passes⟩ := signals
    exact signalFrom_listed kept.listed.sameLists passes
  refine ⟨⟨⟨later, woken, signals⟩, ?_⟩, ?_⟩
  · intro later' woken' signals'
    obtain ⟨rfl, rfl⟩ := signals.unique signals'
    exact passed.wakes kept listed
  · intro later' woken' signals'
    obtain ⟨rfl, -⟩ := signals.unique signals'
    exact ⟨listed, passed.quiet kept⟩

/-! ## Runs -/

/-- Every clean call keeps the invariant. -/
theorem Kept.step
    {call : WaitCall}
    (kept : waiting.Kept)
    (clean : waiting.CleanCall call = true)
    (steps : WaitStep waiting call later) :
    later.Kept := by
  obtain ⟨allowed, calls⟩ := steps
  cases call with
  | newThread th priority system =>
      obtain rfl := calls
      exact kept.NewThread
  | sleep th =>
      obtain rfl := calls
      exact kept.Sleep (of_decide_eq_true allowed)
  | restart th =>
      obtain rfl := calls
      exact kept.Restart
  | suspend th =>
      obtain rfl := calls
      exact kept.Suspend
  | resume th =>
      obtain rfl := calls
      exact kept.Resume
  | terminate th =>
      obtain rfl := calls
      exact kept.Terminate
  | waitForSignal th wait granted =>
      obtain rfl := calls
      exact kept.WaitForSignal
  | reset object =>
      obtain rfl := calls
      exact kept.Reset
  | checkWait th now =>
      obtain rfl := calls
      exact kept.CheckWait
  | signalObject object =>
      obtain ⟨woken, signals⟩ := calls
      exact (Clean.sound kept clean).2 later woken signals

theorem Kept.start (begins : WaitStart waiting) : waiting.Kept := by
  obtain ⟨⟨_, empty, _⟩, none_⟩ := begins
  have never : ∀ th wait, waiting.m_waitForObject th ≠ some wait := by
    intro th wait some_
    rw [none_ th] at some_
    cases some_
  refine ⟨⟨?_, ?_, ?_⟩, ?_⟩
  · rw [empty]
    exact List.nodup_nil
  · exact fun th wait some_ => absurd some_ (never th wait)
  · exact fun th wait some_ => absurd some_ (never th wait)
  · exact fun th wait _ some_ => absurd some_ (never th wait)

end WaitingEngine

/-- After any calls of which the signals are clean, a clean signal returns and
wakes the threads that it is to wake. -/
theorem signals_sound
    {taken : List (WaitingEngine × WaitCall)}
    {waiting : WaitingEngine}
    (run : Run WaitStart WaitStep taken waiting)
    (clean : ∀ entry ∈ taken, entry.1.CleanCall entry.2 = true)
    (object : Nat)
    (cleanNow : waiting.Clean object = true) :
    waiting.SignalSound object := by
  have kept := run.invariant_of WaitingEngine.Kept
    (fun waiting call => waiting.CleanCall call = true)
    (fun _ begins => WaitingEngine.Kept.start begins)
    (fun _ _ _ kept clean steps => kept.step clean steps) clean
  exact (WaitingEngine.Clean.sound kept cleanNow).1

/-! ## Suspended threads -/

namespace WaitingEngine

/-- A suspended thread whose wait is satisfied. -/
structure SuspendedSatisfied (waiting : WaitingEngine) (th : Nat) : Prop where
  suspended : (waiting.engine.threads th).suspended = true
  waits : ∃ wait, waiting.m_waitForObject th = some wait ∧
    Satisfied waiting.HB_Signaled wait.m_objects wait.m_fWaitAll

variable
  {waiting : WaitingEngine}
  {object first second : Nat}

/-- A pass over two suspended threads whose waits are satisfied by manual objects
never ends: each of them goes behind the other one. -/
theorem signalFrom_never
    (list : waiting.engine.m_threadsWaiting = [first, second])
    (different : first ≠ second)
    (manual : ∀ obj, waiting.HB_SignalAutoReset obj = false)
    (signaled : waiting.HB_Signaled object = true)
    (isFirst : waiting.SuspendedSatisfied first)
    (isSecond : waiting.SuspendedSatisfied second)
    (rounds : Nat) :
    signalFrom object rounds waiting (some first) = none := by
  induction rounds generalizing waiting first second with
  | zero => rfl
  | succ rounds inductionHypothesis =>
      have thNext : waiting.Next first = some second :=
        @Next_eq waiting first [] [second] list List.not_mem_nil
      obtain ⟨suspended, wait, some_, satisfied⟩ := isFirst
      obtain ⟨suspended', wait', some_', satisfied'⟩ := isSecond
      obtain ⟨left, tried⟩ : ∃ left,
          waiting.tries waiting.HB_Signaled first = some left := by
        rw [← Option.ne_none_iff_exists']
        intro fails
        exact tries_eq_none.mp fails wait some_ satisfied
      have same : left = waiting.HB_Signaled := by
        funext obj
        exact tries_manual tried (manual obj)
      obtain ⟨results, restarts⟩ := tryRestart_eq_some tried
      rw [same] at restarts
      rw [signalFrom_restarts restarts signaled, thNext]
      have stays : CLR_RT_Thread.staysWaiting
          { waiting.engine.threads first with m_status := .TH_S_Ready } =
            true := suspended
      have behind : (Restart { waiting with
          m_waitForObject_Result := results } first).engine.m_threadsWaiting =
          [second, first] := by
        refine change_threadsWaiting.trans ?_
        rw [list, if_pos stays]
        simp [different.symm]
      have again := @inductionHypothesis
        (Restart { waiting with m_waitForObject_Result := results } first)
        second first behind different.symm manual signaled
        ⟨(congrArg CLR_RT_Thread.suspended
            (change_threads_of_ne different.symm)).trans suspended',
          wait', (change_wait_of_ne different.symm).trans some_', satisfied'⟩
        ⟨?_, wait, ?_, satisfied⟩
      · rw [again]
        rfl
      · refine (congrArg CLR_RT_Thread.suspended (change_thread ?_)).trans
          suspended
        intro terminated
        cases terminated
      · refine (change_wait ?_).trans ?_
        · intro unstarted
          cases unstarted
        · rw [if_pos stays]
          exact some_

end WaitingEngine

/-! ## Calls one after another -/

/-- The pass of a signal in as many rounds as threads wait. -/
def WaitingEngine.signalInTurn (waiting : WaitingEngine) (object : Nat) :
    Option (WaitingEngine × List Nat) :=
  WaitingEngine.signalFrom object waiting.engine.m_threadsWaiting.length
    (waiting.setSignaled object) waiting.engine.m_threadsWaiting.head?

/-- The engine behind a call, with the pass of a signal. -/
def WaitingEngine.next (waiting : WaitingEngine) (call : WaitCall) :
    WaitingEngine :=
  match call with
  | .signalObject object =>
      ((waiting.signalInTurn object).map Prod.fst).getD waiting
  | call => waiting.after call

/-- A signal returns in as many rounds as threads wait. -/
def WaitingEngine.returnsInTurn (waiting : WaitingEngine) : WaitCall → Bool
  | .signalObject object => (waiting.signalInTurn object).isSome
  | _ => true

/-- The engine before there are threads, with some automatic objects. -/
def beforeWaits (automatic : List Nat) : WaitingEngine where
  engine :=
    { threads := fun _ =>
        { m_status := .TH_S_Unstarted
          suspended := false
          system := false
          m_executionCounter := 0
          m_priority := 2 }
      m_threadsReady := []
      m_threadsWaiting := []
      m_threadsZombie := []
      m_GlobalExecutionCounter := 0
      m_cctorThread := none
      running := none }
  m_waitForObject := fun _ => none
  m_waitForObject_Result := fun _ => .INIT
  HB_Signaled := fun _ => false
  HB_SignalAutoReset := fun obj => decide (obj ∈ automatic)

theorem next_calls
    {waiting : WaitingEngine}
    {call : WaitCall}
    (returns : waiting.returnsInTurn call = true) :
    waiting.Calls call (waiting.next call) := by
  cases call with
  | signalObject object =>
      obtain ⟨result, passes⟩ := Option.isSome_iff_exists.mp returns
      refine ⟨result.2, waiting.engine.m_threadsWaiting.length, ?_⟩
      show waiting.signalInTurn object = _
      rw [WaitingEngine.next, passes]
      rfl
  | newThread | sleep | restart | suspend | resume | terminate
  | waitForSignal | reset | checkWait => rfl

/-- Calls that can be made, with signals that return, are a run. -/
theorem run_calls
    {automatic : List Nat}
    {calls : List WaitCall}
    (made : (trail WaitingEngine.next (beforeWaits automatic) calls).all
      fun entry =>
        entry.1.allows entry.2 && entry.1.returnsInTurn entry.2) :
    Run WaitStart WaitStep
      (trail WaitingEngine.next (beforeWaits automatic) calls)
      (calls.foldl WaitingEngine.next (beforeWaits automatic)) := by
  have begins : WaitStart (beforeWaits automatic) :=
    ⟨⟨rfl, rfl, rfl, rfl, rfl, rfl⟩, fun _ => rfl⟩
  refine (Run.start begins).follow WaitingEngine.next ?_
  intro entry member
  have both := List.all_eq_true.mp made entry member
  rw [Bool.and_eq_true] at both
  exact ⟨both.1, next_calls both.2⟩

/-- A wait without a time limit. -/
def waitFor (objects : List Nat) (fWaitAll : Bool) :
    CLR_RT_HeapBlock_WaitForObject :=
  ⟨2 ^ 63 - 1, objects, fWaitAll⟩

/-- A thread waits for one of two objects and is woken; of three others, one
waits for both objects and the last one is suspended. -/
def callsBeforeSignal : List WaitCall :=
  [.newThread 1 2 false, .newThread 2 2 false, .newThread 3 2 false,
    .newThread 4 2 false, .waitForSignal 1 (waitFor [7] false) true,
    .waitForSignal 2 (waitFor [7, 8] true) true,
    .waitForSignal 3 (waitFor [8, 9] false) true,
    .waitForSignal 4 (waitFor [7] false) true, .suspend 4, .signalObject 8,
    .signalObject 8]

/-- The engine behind these calls, with object 8 an automatic one. -/
def beforeSignal : WaitingEngine :=
  callsBeforeSignal.foldl WaitingEngine.next (beforeWaits [8])

/-- Three threads are woken at once. -/
theorem signals_sound_three :
    (beforeSignal.signalInTurn 7).map Prod.snd = some [1, 2, 4] ∧
      beforeSignal.SignalSound 7 := by
  have run := @run_calls [8] callsBeforeSignal (by decide)
  have clean : (trail WaitingEngine.next (beforeWaits [8])
      callsBeforeSignal).all fun entry => entry.1.CleanCall entry.2 := by
    decide
  exact ⟨by decide,
    signals_sound run (List.all_eq_true.mp clean) 7 (by decide)⟩

/-- Two threads wait for a manual object and are suspended. -/
def callsBeforeLoop : List WaitCall :=
  [.newThread 1 2 false, .newThread 2 2 false,
    .waitForSignal 1 (waitFor [7] false) true,
    .waitForSignal 2 (waitFor [7] false) true, .suspend 1, .suspend 2]

theorem signalObject_neverReturns :
    ¬ ∀ (taken : List (WaitingEngine × WaitCall)) (waiting : WaitingEngine),
      Run WaitStart WaitStep taken waiting →
        ∀ object, waiting.SignalSound object := by
  intro sound
  obtain ⟨⟨later, woken, rounds, passes⟩, -⟩ := sound _ _
    (@run_calls [] callsBeforeLoop (by decide)) 7
  let looping : WaitingEngine := WaitingEngine.setSignaled
    (callsBeforeLoop.foldl WaitingEngine.next (beforeWaits [])) 7
  have satisfied : Satisfied looping.HB_Signaled [7] false :=
    ⟨7, List.mem_singleton_self 7, rfl⟩
  have never := @WaitingEngine.signalFrom_never looping 7 1 2 (by decide)
    (by decide) (fun _ => rfl) rfl ⟨rfl, waitFor [7] false, rfl, satisfied⟩
    ⟨rfl, waitFor [7] false, rfl, satisfied⟩ rounds
  exact Option.some_ne_none _ (passes.symm.trans never)

end Scheduling

end NanoClr
