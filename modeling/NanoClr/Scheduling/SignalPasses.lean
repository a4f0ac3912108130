import Mathlib.Data.List.Nodup
import NanoClr.Scheduling.WaitForObject

/-!
# Passes over the waiting threads

When a wait is satisfied and what it resets, where a change of a thread puts it,
and what a pass of `SignalObject` does to the threads of the list.
-/

namespace NanoClr

namespace Scheduling

/-! ## Satisfied waits -/

/-- A wait for all objects or for one of them is satisfied. -/
def Satisfied (HB_Signaled : Nat → Bool) (objects : List Nat)
    (fWaitAll : Bool) : Prop :=
  if fWaitAll then ∀ obj ∈ objects, HB_Signaled obj = true
  else ∃ obj ∈ objects, HB_Signaled obj = true

section Flags

variable
  {HB_SignalAutoReset HB_Signaled fewer : Nat → Bool}
  {objects : List Nat}
  {fWaitAll : Bool}
  {object : Nat}

theorem Satisfied.mono
    (satisfied : Satisfied fewer objects fWaitAll)
    (more : ∀ obj, fewer obj = true → HB_Signaled obj = true) :
    Satisfied HB_Signaled objects fWaitAll := by
  rw [Satisfied] at satisfied ⊢
  split at satisfied
  · rename_i all
    rw [if_pos all]
    exact fun obj member => more obj (satisfied obj member)
  · rename_i all
    rw [if_neg all]
    obtain ⟨obj, member, signaled⟩ := satisfied
    exact ⟨obj, member, more obj signaled⟩

theorem resetFlags_le {obj : Nat}
    (signaled : resetFlags HB_SignalAutoReset HB_Signaled object obj = true) :
    HB_Signaled obj = true := by
  rw [resetFlags] at signaled
  split at signaled
  · by_cases same : obj = object
    · rw [same, Function.update_self] at signaled
      cases signaled
    · rwa [Function.update_of_ne same] at signaled
  · exact signaled

theorem foldl_resetFlags_le {obj : Nat}
    (signaled : objects.foldl (resetFlags HB_SignalAutoReset) HB_Signaled obj =
      true) :
    HB_Signaled obj = true := by
  induction objects generalizing HB_Signaled with
  | nil => exact signaled
  | cons first rest inductionHypothesis =>
      exact resetFlags_le (inductionHypothesis signaled)

/-- An automatic object of a wait for all is reset. -/
theorem foldl_resetFlags_self
    (member : object ∈ objects)
    (automatic : HB_SignalAutoReset object = true) :
    objects.foldl (resetFlags HB_SignalAutoReset) HB_Signaled object = false := by
  induction objects generalizing HB_Signaled with
  | nil => cases member
  | cons first rest inductionHypothesis =>
      rw [List.foldl_cons]
      rcases List.mem_cons.mp member with rfl | inRest
      · rw [← Bool.not_eq_true]
        intro signaled
        have still := foldl_resetFlags_le signaled
        rw [resetFlags, if_pos automatic, Function.update_self] at still
        cases still
      · exact inductionHypothesis inRest

theorem firstSignaled_eq_none {i : Nat} :
    firstSignaled HB_Signaled i objects = none ↔
      ∀ obj ∈ objects, HB_Signaled obj = false := by
  induction objects generalizing i with
  | nil => simp [firstSignaled]
  | cons first rest inductionHypothesis =>
      rw [firstSignaled, List.forall_mem_cons]
      cases signaled : HB_Signaled first with
      | true => simp
      | false => simpa using inductionHypothesis

theorem firstSignaled_some {i : Nat} {found : Nat × Nat}
    (first : firstSignaled HB_Signaled i objects = some found) :
    found.2 ∈ objects ∧ HB_Signaled found.2 = true := by
  induction objects generalizing i with
  | nil => cases first
  | cons obj rest inductionHypothesis =>
      rw [firstSignaled] at first
      split at first
      · rename_i signaled
        obtain rfl := Option.some.inj first
        exact ⟨List.mem_cons_self, signaled⟩
      · obtain ⟨member, signaled⟩ := inductionHypothesis first
        exact ⟨List.mem_cons_of_mem _ member, signaled⟩

/-- A wait succeeds where it is satisfied. -/
theorem tryWaitForSignal_eq_none :
    TryWaitForSignal HB_SignalAutoReset HB_Signaled objects fWaitAll = none ↔
      ¬ Satisfied HB_Signaled objects fWaitAll := by
  rw [TryWaitForSignal, Satisfied]
  cases fWaitAll with
  | true =>
      rw [if_pos rfl, if_pos rfl]
      by_cases all : objects.all HB_Signaled = true
      · rw [if_pos all]
        exact iff_of_false (Option.some_ne_none _)
          (not_not.mpr (List.all_eq_true.mp all))
      · rw [if_neg all]
        exact iff_of_true rfl fun every => all (List.all_eq_true.mpr every)
  | false =>
      rw [if_neg Bool.false_ne_true, if_neg Bool.false_ne_true,
        Option.map_eq_none_iff, firstSignaled_eq_none]
      simp

variable {signals : WaitResult × (Nat → Bool)}

/-- A wait that succeeds signals nothing. -/
theorem tryWaitForSignal_le
    (succeeds : TryWaitForSignal HB_SignalAutoReset HB_Signaled objects
      fWaitAll = some signals)
    {obj : Nat}
    (signaled : signals.2 obj = true) :
    HB_Signaled obj = true := by
  rw [TryWaitForSignal] at succeeds
  split at succeeds
  · split at succeeds
    · obtain rfl := Option.some.inj succeeds
      exact foldl_resetFlags_le signaled
    · cases succeeds
  · obtain ⟨found, _, rfl⟩ := Option.map_eq_some_iff.mp succeeds
    exact resetFlags_le signaled

theorem resetFlags_manual
    (manual : HB_SignalAutoReset object = false)
    (obj : Nat) :
    resetFlags HB_SignalAutoReset HB_Signaled obj object =
      HB_Signaled object := by
  rw [resetFlags]
  split
  · rename_i automatic
    refine Function.update_of_ne ?_ _ _
    rintro rfl
    rw [manual] at automatic
    cases automatic
  · rfl

/-- An object that is not automatic is not reset. -/
theorem tryWaitForSignal_manual
    (succeeds : TryWaitForSignal HB_SignalAutoReset HB_Signaled objects
      fWaitAll = some signals)
    (manual : HB_SignalAutoReset object = false) :
    signals.2 object = HB_Signaled object := by
  have all : ∀ HB_Signaled : Nat → Bool,
      objects.foldl (resetFlags HB_SignalAutoReset) HB_Signaled object =
        HB_Signaled object := by
    clear succeeds
    induction objects with
    | nil => exact fun _ => rfl
    | cons first rest inductionHypothesis =>
        intro HB_Signaled
        exact (inductionHypothesis _).trans (resetFlags_manual manual first)
  rw [TryWaitForSignal] at succeeds
  split at succeeds
  · split at succeeds
    · obtain rfl := Option.some.inj succeeds
      exact all HB_Signaled
    · cases succeeds
  · obtain ⟨found, _, rfl⟩ := Option.map_eq_some_iff.mp succeeds
    exact resetFlags_manual manual found.2

/-- A wait that only an automatic object satisfies resets it. -/
theorem tryWaitForSignal_resets
    (succeeds : TryWaitForSignal HB_SignalAutoReset HB_Signaled objects
      fWaitAll = some signals)
    (only : ¬ Satisfied (Function.update HB_Signaled object false) objects
      fWaitAll)
    (automatic : HB_SignalAutoReset object = true) :
    signals.2 object = false := by
  have satisfied : Satisfied HB_Signaled objects fWaitAll := by
    by_contra never
    rw [tryWaitForSignal_eq_none.mpr never] at succeeds
    cases succeeds
  have needed : object ∈ objects := by
    by_contra outside
    have same : ∀ obj ∈ objects,
        Function.update HB_Signaled object false obj = HB_Signaled obj :=
      fun obj member => Function.update_of_ne
        (ne_of_mem_of_not_mem member outside) _ _
    apply only
    rw [Satisfied] at satisfied ⊢
    split at satisfied
    · rename_i all
      rw [if_pos all]
      exact fun obj member => (same obj member).trans (satisfied obj member)
    · rename_i all
      rw [if_neg all]
      obtain ⟨obj, member, signaled⟩ := satisfied
      exact ⟨obj, member, (same obj member).trans signaled⟩
  rw [TryWaitForSignal] at succeeds
  split at succeeds
  · split at succeeds
    · obtain rfl := Option.some.inj succeeds
      exact foldl_resetFlags_self needed automatic
    · cases succeeds
  · rename_i one
    obtain ⟨found, first, rfl⟩ := Option.map_eq_some_iff.mp succeeds
    obtain ⟨member, signaled⟩ := firstSignaled_some first
    have isObject : found.2 = object := by
      by_contra different
      apply only
      rw [Satisfied, if_neg one]
      exact ⟨found.2, member,
        (Function.update_of_ne different _ _).trans signaled⟩
    rw [isObject]
    show resetFlags HB_SignalAutoReset HB_Signaled object object = false
    rw [resetFlags, if_pos automatic, Function.update_self]

end Flags

/-! ## Where a thread is put -/

/-- A thread with this status goes to the waiting threads. -/
def CLR_RT_Thread.staysWaiting (thread : CLR_RT_Thread) : Bool :=
  match thread.m_status with
  | .TH_S_Ready => thread.suspended
  | .TH_S_Waiting => true
  | .TH_S_Terminated | .TH_S_Unstarted => false

namespace WaitingEngine

variable
  {waiting : WaitingEngine}
  {th : Nat}
  {change : CLR_RT_Thread → CLR_RT_Thread}

/-- The threads of the list behind a change of one of them. -/
theorem change_threadsWaiting :
    (waiting.change th change).engine.m_threadsWaiting =
      waiting.engine.m_threadsWaiting.filter (· ≠ th) ++
        if (change (waiting.engine.threads th)).staysWaiting then [th]
        else [] := by
  have thread : (waiting.engine.modifyThread th change).threads th =
      change (waiting.engine.threads th) := Function.update_self _ _ _
  show ((waiting.engine.modifyThread th change).PutInProperList
    th).m_threadsWaiting = _
  rw [CLR_RT_ExecutionEngine.PutInProperList, CLR_RT_Thread.staysWaiting, thread]
  cases (change (waiting.engine.threads th)).m_status with
  | TH_S_Ready =>
      cases (change (waiting.engine.threads th)).suspended with
      | true => rfl
      | false => exact (List.append_nil _).symm
  | TH_S_Waiting => rfl
  | TH_S_Terminated =>
      refine Eq.trans ?_ (List.append_nil _).symm
      show (CLR_RT_ExecutionEngine.Passivate _ th).m_threadsWaiting = _
      rw [CLR_RT_ExecutionEngine.Passivate]
      split <;> rfl
  | TH_S_Unstarted => exact (List.append_nil _).symm

/-- Another thread stays as it is. -/
theorem change_threads_of_ne {other : Nat} (different : other ≠ th) :
    (waiting.change th change).engine.threads other =
      waiting.engine.threads other := by
  have kept : ((waiting.engine.modifyThread th change).threads other) =
      waiting.engine.threads other := Function.update_of_ne different _ _
  show ((waiting.engine.modifyThread th change).PutInProperList
    th).threads other = _
  rw [CLR_RT_ExecutionEngine.PutInProperList]
  split
  · split
    · exact kept
    · exact kept
  · exact kept
  · rw [CLR_RT_ExecutionEngine.Passivate]
    have passive : ((((waiting.engine.modifyThread th change).setSuspended th
        false).linkZombie th).threads other) = waiting.engine.threads other :=
      (Function.update_of_ne different _ _).trans kept
    split
    · exact (Function.update_of_ne different _ _).trans passive
    · exact (Function.update_of_ne different _ _).trans passive
  · exact kept

/-- The thread is changed, unless it has terminated. -/
theorem change_thread
    (alive : (change (waiting.engine.threads th)).m_status ≠
      .TH_S_Terminated) :
    (waiting.change th change).engine.threads th =
      change (waiting.engine.threads th) := by
  have thread : (waiting.engine.modifyThread th change).threads th =
      change (waiting.engine.threads th) := Function.update_self _ _ _
  show ((waiting.engine.modifyThread th change).PutInProperList
    th).threads th = _
  rw [CLR_RT_ExecutionEngine.PutInProperList, thread]
  split
  · split
    · exact thread
    · exact thread
  · exact thread
  · rename_i terminated
    exact absurd terminated alive
  · exact thread

theorem change_nodup (nodup : waiting.engine.m_threadsWaiting.Nodup) :
    (waiting.change th change).engine.m_threadsWaiting.Nodup := by
  rw [change_threadsWaiting]
  split
  · rw [List.nodup_append]
    refine ⟨nodup.filter _, List.nodup_singleton th, ?_⟩
    rintro other inList _ isLast rfl
    rw [List.mem_singleton] at isLast
    have different := (List.mem_filter.mp inList).2
    exact of_decide_eq_true different isLast
  · rw [List.append_nil]
    exact nodup.filter _

theorem change_wait_of_ne {other : Nat} (different : other ≠ th) :
    (waiting.change th change).m_waitForObject other =
      waiting.m_waitForObject other := by
  show (if _ then Function.update waiting.m_waitForObject th none
    else waiting.m_waitForObject) other = _
  split
  · exact Function.update_of_ne different _ _
  · rfl

/-- A thread that goes on waiting keeps its wait object. -/
theorem change_wait
    (unstarted : (change (waiting.engine.threads th)).m_status =
      .TH_S_Unstarted → waiting.m_waitForObject th = none) :
    (waiting.change th change).m_waitForObject th =
      if (change (waiting.engine.threads th)).staysWaiting then
        waiting.m_waitForObject th
      else none := by
  have thread : (waiting.engine.modifyThread th change).threads th =
      change (waiting.engine.threads th) := Function.update_self _ _ _
  show (if releases _ th then Function.update waiting.m_waitForObject th none
    else waiting.m_waitForObject) th = _
  rw [releases, CLR_RT_Thread.staysWaiting, thread]
  cases status : (change (waiting.engine.threads th)).m_status with
  | TH_S_Ready =>
      cases (change (waiting.engine.threads th)).suspended with
      | true => rfl
      | false => exact Function.update_self _ _ _
  | TH_S_Waiting => rfl
  | TH_S_Terminated => exact Function.update_self _ _ _
  | TH_S_Unstarted => exact unstarted status

end WaitingEngine

/-! ## The list -/

/-- The threads with a wait object are on the list of waiting threads, and
nothing is on it twice. -/
structure Listed (waiting : WaitingEngine) : Prop where
  nodup : waiting.engine.m_threadsWaiting.Nodup
  listed : ∀ th wait, waiting.m_waitForObject th = some wait →
    th ∈ waiting.engine.m_threadsWaiting
  waits : ∀ th wait, waiting.m_waitForObject th = some wait →
    (waiting.engine.threads th).staysWaiting = true

namespace Listed

variable
  {waiting : WaitingEngine}
  {th : Nat}
  {change : CLR_RT_Thread → CLR_RT_Thread}

/-- A thread that has not started waits for nothing. -/
theorem unstarted
    (listed : Listed waiting)
    (status : (waiting.engine.threads th).m_status = .TH_S_Unstarted) :
    waiting.m_waitForObject th = none := by
  rw [Option.eq_none_iff_forall_ne_some]
  intro wait waits
  have stays := listed.waits th wait waits
  rw [CLR_RT_Thread.staysWaiting, status] at stays
  cases stays

/-- The list does not depend on the flags and the results. -/
theorem sameLists
    {m_waitForObject_Result : Nat → WaitResult}
    {HB_Signaled : Nat → Bool}
    (listed : Listed waiting) :
    Listed { waiting with m_waitForObject_Result, HB_Signaled } :=
  ⟨listed.nodup, listed.listed, listed.waits⟩

/-- A thread that may run has no wait object. -/
theorem runs
    (listed : Listed waiting)
    (runs : waiting.Runs th) :
    waiting.m_waitForObject th = none := by
  rw [Option.eq_none_iff_forall_ne_some]
  intro wait some_
  have stays := listed.waits th wait some_
  rw [CLR_RT_Thread.staysWaiting, runs.2.1, runs.2.2] at stays
  cases stays

/-- A change of a thread, which goes to its list. -/
theorem changed
    (nodup : waiting.engine.m_threadsWaiting.Nodup)
    (others : ∀ other ≠ th, ∀ wait,
      waiting.m_waitForObject other = some wait →
        other ∈ waiting.engine.m_threadsWaiting ∧
          (waiting.engine.threads other).staysWaiting = true)
    (unstarted : (change (waiting.engine.threads th)).m_status =
      .TH_S_Unstarted → waiting.m_waitForObject th = none) :
    Listed (waiting.change th change) := by
  have self := WaitingEngine.change_wait unstarted
  constructor
  · exact WaitingEngine.change_nodup nodup
  · intro other wait waits
    rw [WaitingEngine.change_threadsWaiting, List.mem_append]
    by_cases same : other = th
    · subst same
      rw [self] at waits
      split at waits
      · rename_i stays
        rw [if_pos stays]
        exact Or.inr (List.mem_singleton_self other)
      · cases waits
    · rw [WaitingEngine.change_wait_of_ne same] at waits
      exact Or.inl (List.mem_filter.mpr
        ⟨(others other same wait waits).1, decide_eq_true same⟩)
  · intro other wait waits
    by_cases same : other = th
    · subst same
      rw [self] at waits
      split at waits
      · rename_i stays
        rw [WaitingEngine.change_thread]
        · exact stays
        · intro terminated
          rw [CLR_RT_Thread.staysWaiting, terminated] at stays
          cases stays
      · cases waits
    · rw [WaitingEngine.change_wait_of_ne same] at waits
      rw [WaitingEngine.change_threads_of_ne same]
      exact (others other same wait waits).2

/-- A thread is restarted. -/
theorem Restart (listed : Listed waiting) : Listed (waiting.Restart th) :=
  changed listed.nodup
    (fun other _ wait waits =>
      ⟨listed.listed other wait waits, listed.waits other wait waits⟩)
    fun unstarted => by cases unstarted

end Listed

namespace WaitingEngine

/-! ## Restarts -/

/-- The flags that are left where the wait of a thread succeeds. -/
def tries (waiting : WaitingEngine) (HB_Signaled : Nat → Bool) (th : Nat) :
    Option (Nat → Bool) :=
  (waiting.m_waitForObject th).bind fun wait =>
    (TryWaitForSignal waiting.HB_SignalAutoReset HB_Signaled wait.m_objects
      wait.m_fWaitAll).map Prod.snd

variable
  {waiting : WaitingEngine}
  {th : Nat}
  {HB_Signaled left : Nat → Bool}

theorem tries_eq_none :
    waiting.tries HB_Signaled th = none ↔
      ∀ wait, waiting.m_waitForObject th = some wait →
        ¬ Satisfied HB_Signaled wait.m_objects wait.m_fWaitAll := by
  rw [tries]
  cases waiting.m_waitForObject th with
  | none => simp
  | some wait =>
      rw [Option.bind_some, Option.map_eq_none_iff, tryWaitForSignal_eq_none]
      simp

theorem tries_eq_some :
    waiting.tries HB_Signaled th = some left ↔
      ∃ wait signals, waiting.m_waitForObject th = some wait ∧
        TryWaitForSignal waiting.HB_SignalAutoReset HB_Signaled wait.m_objects
          wait.m_fWaitAll = some signals ∧ signals.2 = left := by
  rw [tries]
  simp [Option.bind_eq_some_iff]

theorem tryRestart_eq_none
    (fails : waiting.tries waiting.HB_Signaled th = none) :
    waiting.tryRestart th = none := by
  rw [tries] at fails
  rw [tryRestart]
  cases waits : waiting.m_waitForObject th with
  | none => rfl
  | some wait =>
      rw [waits, Option.bind_some, Option.map_eq_none_iff] at fails
      simp only [fails, Option.map_none]

/-- A thread whose wait succeeds is restarted. -/
theorem tryRestart_eq_some
    (succeeds : waiting.tries waiting.HB_Signaled th = some left) :
    ∃ m_waitForObject_Result, waiting.tryRestart th =
      some (Restart
        { waiting with m_waitForObject_Result, HB_Signaled := left } th) := by
  obtain ⟨wait, signals, waits, tried, rfl⟩ := tries_eq_some.mp succeeds
  refine ⟨Function.update waiting.m_waitForObject_Result th signals.1, ?_⟩
  rw [tryRestart]
  simp only [waits, tried, Option.map_some]

/-! ## Passes -/

/-- No thread that a pass restarts has been restarted before, and none is
suspended with others behind it that the pass comes to. -/
def passesOnce (waiting : WaitingEngine) (object : Nat) :
    (Nat → Bool) → List Nat → Bool
  | _, [] => true
  | HB_Signaled, th :: rest =>
      match waiting.tries HB_Signaled th with
      | none => waiting.passesOnce object HB_Signaled rest
      | some left =>
          (waiting.engine.threads th).m_status == .TH_S_Waiting &&
            (!left object ||
              (!(waiting.engine.threads th).suspended || rest.isEmpty) &&
                waiting.passesOnce object left rest)

/-- What a pass over the threads of a list does. -/
structure Passed (object : Nat) (waiting later : WaitingEngine)
    (threads woken : List Nat) : Prop where
  sublist : woken.Sublist threads
  waited : ∀ th ∈ woken,
    (waiting.engine.threads th).m_status = .TH_S_Waiting ∧
      waiting.m_waitForObject th ≠ none
  awake : ∀ th ∈ woken, (later.engine.threads th).m_status = .TH_S_Ready
  others : ∀ th ∉ woken,
    later.engine.threads th = waiting.engine.threads th ∧
      later.m_waitForObject th = waiting.m_waitForObject th
  fewer : ∀ obj, later.HB_Signaled obj = true → waiting.HB_Signaled obj = true
  automatic : later.HB_SignalAutoReset = waiting.HB_SignalAutoReset
  manual : waiting.HB_SignalAutoReset object = false →
    later.HB_Signaled object = waiting.HB_Signaled object
  complete : later.HB_Signaled object = true →
    ∀ th ∈ threads, th ∉ woken → ∀ wait, waiting.m_waitForObject th = some wait →
      ¬ Satisfied later.HB_Signaled wait.m_objects wait.m_fWaitAll
  single : waiting.HB_SignalAutoReset object = true →
    (∀ th ∈ threads, (waiting.engine.threads th).m_status = .TH_S_Waiting →
      ∀ wait, waiting.m_waitForObject th = some wait →
        ¬ Satisfied (Function.update waiting.HB_Signaled object false)
          wait.m_objects wait.m_fWaitAll) →
    woken.length ≤ 1

section Passes

variable
  {later : WaitingEngine}
  {object : Nat}
  {threads : List Nat}

theorem tries_congr
    (wait : later.m_waitForObject th = waiting.m_waitForObject th)
    (automatic : later.HB_SignalAutoReset = waiting.HB_SignalAutoReset) :
    later.tries HB_Signaled th = waiting.tries HB_Signaled th := by
  rw [tries, tries, wait, automatic]

theorem passesOnce_congr
    (same : ∀ th ∈ threads,
      later.engine.threads th = waiting.engine.threads th ∧
        later.m_waitForObject th = waiting.m_waitForObject th)
    (automatic : later.HB_SignalAutoReset = waiting.HB_SignalAutoReset) :
    later.passesOnce object HB_Signaled threads =
      waiting.passesOnce object HB_Signaled threads := by
  induction threads generalizing HB_Signaled with
  | nil => rfl
  | cons th rest inductionHypothesis =>
      rw [List.forall_mem_cons] at same
      rw [passesOnce, passesOnce, tries_congr same.1.2 automatic, same.1.1]
      split
      · exact inductionHypothesis same.2
      · rw [inductionHypothesis same.2]

/-- The thread behind another one. -/
theorem Next_eq
    {ahead rest : List Nat}
    (list : waiting.engine.m_threadsWaiting = ahead ++ th :: rest)
    (outside : th ∉ ahead) :
    waiting.Next th = rest.head? := by
  have passed : ∀ other ∈ ahead, decide (other ≠ th) = true :=
    fun other member => decide_eq_true (ne_of_mem_of_not_mem member outside)
  rw [Next, list, List.dropWhile_append_of_pos passed,
    List.dropWhile_cons_of_neg (by simp), List.tail_cons]

/-- A thread whose wait fails is passed over. -/
theorem signalFrom_fails
    {rounds : Nat}
    (signaled : waiting.HB_Signaled object = true)
    (fails : waiting.tries waiting.HB_Signaled th = none) :
    signalFrom object (rounds + 1) waiting (some th) =
      signalFrom object rounds waiting (waiting.Next th) := by
  rw [signalFrom]
  simp only [tryRestart_eq_none fails, Option.getD_none, Option.isSome_none,
    signaled, Bool.false_eq_true, if_false, if_true, List.nil_append]
  exact Option.map_id'

/-- A thread is restarted and resets the object. -/
theorem signalFrom_last
    {rounds : Nat}
    (restarted : waiting.tryRestart th = some later)
    (reset : later.HB_Signaled object = false) :
    signalFrom object (rounds + 1) waiting (some th) = some (later, [th]) := by
  rw [signalFrom]
  simp only [restarted, Option.getD_some, Option.isSome_some, reset,
    Bool.false_eq_true, if_false, if_true]

/-- A thread is restarted, and the pass goes on. -/
theorem signalFrom_restarts
    {rounds : Nat}
    (restarted : waiting.tryRestart th = some later)
    (signaled : later.HB_Signaled object = true) :
    signalFrom object (rounds + 1) waiting (some th) =
      (signalFrom object rounds later (waiting.Next th)).map fun rest =>
        (rest.1, th :: rest.2) := by
  rw [signalFrom]
  simp only [restarted, Option.getD_some, Option.isSome_some, signaled, if_true,
    List.singleton_append]

theorem Passed.nil : Passed object waiting waiting [] [] where
  sublist := List.Sublist.slnil
  waited := List.forall_mem_nil _
  awake := List.forall_mem_nil _
  others := fun _ _ => ⟨rfl, rfl⟩
  fewer := fun _ signaled => signaled
  automatic := rfl
  manual := fun _ => rfl
  complete := fun _ _ member => absurd member List.not_mem_nil
  single := fun _ _ => Nat.zero_le 1

/-- A thread whose wait fails does not change the pass. -/
theorem Passed.skip
    {rest woken : List Nat}
    (passed : Passed object waiting later rest woken)
    (outside : th ∉ rest)
    (fails : waiting.tries waiting.HB_Signaled th = none) :
    Passed object waiting later (th :: rest) woken where
  sublist := passed.sublist.cons th
  waited := passed.waited
  awake := passed.awake
  others := passed.others
  fewer := passed.fewer
  automatic := passed.automatic
  manual := passed.manual
  complete := by
    intro signaled other member asleep wait waits
    rcases List.mem_cons.mp member with rfl | inRest
    · intro satisfied
      exact tries_eq_none.mp fails wait waits (satisfied.mono passed.fewer)
    · exact passed.complete signaled other inRest asleep wait waits
  single := fun automatic quiet =>
    passed.single automatic fun other member =>
      quiet other (List.mem_cons_of_mem th member)

/-- Whether the wait of a thread that is restarted resets the object. -/
theorem tries_resets
    {left : Nat → Bool}
    (succeeds : waiting.tries waiting.HB_Signaled th = some left)
    (automatic : waiting.HB_SignalAutoReset object = true)
    (quiet : ∀ wait, waiting.m_waitForObject th = some wait →
      ¬ Satisfied (Function.update waiting.HB_Signaled object false)
        wait.m_objects wait.m_fWaitAll) :
    left object = false := by
  obtain ⟨wait, signals, waits, tried, rfl⟩ := tries_eq_some.mp succeeds
  exact tryWaitForSignal_resets tried (quiet wait waits) automatic

theorem tries_le
    {left : Nat → Bool}
    {obj : Nat}
    (succeeds : waiting.tries waiting.HB_Signaled th = some left)
    (signaled : left obj = true) :
    waiting.HB_Signaled obj = true := by
  obtain ⟨wait, signals, _, tried, rfl⟩ := tries_eq_some.mp succeeds
  exact tryWaitForSignal_le tried signaled

theorem tries_manual
    {left : Nat → Bool}
    (succeeds : waiting.tries waiting.HB_Signaled th = some left)
    (manual : waiting.HB_SignalAutoReset object = false) :
    left object = waiting.HB_Signaled object := by
  obtain ⟨wait, signals, _, tried, rfl⟩ := tries_eq_some.mp succeeds
  exact tryWaitForSignal_manual tried manual

theorem waits_of_tries
    {left : Nat → Bool}
    (succeeds : waiting.tries waiting.HB_Signaled th = some left) :
    waiting.m_waitForObject th ≠ none := by
  obtain ⟨wait, _, waits, _⟩ := tries_eq_some.mp succeeds
  rw [waits]
  exact Option.some_ne_none wait

/-- The thread that is restarted is the first one of the pass. -/
theorem Passed.restart
    {rest woken : List Nat}
    {left : Nat → Bool}
    {m_waitForObject_Result : Nat → WaitResult}
    (passed : Passed object
      (Restart { waiting with m_waitForObject_Result, HB_Signaled := left } th)
      later rest woken)
    (outside : th ∉ rest)
    (succeeds : waiting.tries waiting.HB_Signaled th = some left)
    (waits : (waiting.engine.threads th).m_status = .TH_S_Waiting)
    (signaled : left object = true) :
    Passed object waiting later (th :: rest) (th :: woken) := by
  have apart : ∀ other ∈ woken, other ≠ th := fun other member =>
    ne_of_mem_of_not_mem (passed.sublist.subset member) outside
  have asleep : th ∉ woken := fun member => apart th member rfl
  have same : ∀ other ≠ th,
      (Restart { waiting with m_waitForObject_Result, HB_Signaled := left }
        th).engine.threads other = waiting.engine.threads other ∧
      (Restart { waiting with m_waitForObject_Result, HB_Signaled := left }
        th).m_waitForObject other = waiting.m_waitForObject other :=
    fun other different =>
      ⟨change_threads_of_ne different, change_wait_of_ne different⟩
  have fewer : ∀ obj, later.HB_Signaled obj = true →
      waiting.HB_Signaled obj = true := fun obj signaled =>
    tries_le succeeds (passed.fewer obj signaled)
  constructor
  · exact passed.sublist.cons_cons th
  · rw [List.forall_mem_cons]
    refine ⟨⟨waits, waits_of_tries succeeds⟩, fun other member => ?_⟩
    have waited := passed.waited other member
    rwa [(same other (apart other member)).1,
      (same other (apart other member)).2] at waited
  · rw [List.forall_mem_cons]
    refine ⟨?_, passed.awake⟩
    have restarted := (passed.others th asleep).1
    rw [restarted]
    refine congrArg CLR_RT_Thread.m_status (change_thread ?_)
    intro terminated
    cases terminated
  · intro other notWoken
    obtain ⟨different, asleep⟩ := not_or.mp (List.mem_cons.not.mp notWoken)
    have kept := passed.others other asleep
    exact ⟨kept.1.trans (same other different).1,
      kept.2.trans (same other different).2⟩
  · exact fewer
  · exact passed.automatic
  · intro manual
    exact (passed.manual manual).trans (tries_manual succeeds manual)
  · intro signaled other member notWoken wait waits
    obtain ⟨different, asleep⟩ := not_or.mp (List.mem_cons.not.mp notWoken)
    have inRest := (List.mem_cons.mp member).resolve_left different
    refine passed.complete signaled other inRest asleep wait ?_
    rw [(same other different).2]
    exact waits
  · intro automatic quiet
    have reset := tries_resets succeeds automatic
      (quiet th List.mem_cons_self waits)
    rw [signaled] at reset
    cases reset

/-- The thread that is restarted resets the object, and the pass ends. -/
theorem Passed.last
    {rest : List Nat}
    {left : Nat → Bool}
    {m_waitForObject_Result : Nat → WaitResult}
    (succeeds : waiting.tries waiting.HB_Signaled th = some left)
    (waits : (waiting.engine.threads th).m_status = .TH_S_Waiting)
    (reset : left object = false) :
    Passed object waiting
      (Restart { waiting with m_waitForObject_Result, HB_Signaled := left } th)
      (th :: rest) [th] where
  sublist := List.singleton_sublist.mpr List.mem_cons_self
  waited := List.forall_mem_singleton.mpr ⟨waits, waits_of_tries succeeds⟩
  awake := by
    rw [List.forall_mem_singleton]
    refine congrArg CLR_RT_Thread.m_status (change_thread ?_)
    intro terminated
    cases terminated
  others := fun other different =>
    have different : other ≠ th := List.mem_singleton.not.mp different
    ⟨change_threads_of_ne different, change_wait_of_ne different⟩
  fewer := fun _ signaled => tries_le succeeds signaled
  automatic := rfl
  manual := fun manual => tries_manual succeeds manual
  complete := fun signaled =>
    absurd (reset.symm.trans signaled) Bool.false_ne_true
  single := fun _ _ => Nat.le_refl 1

/-- The pass has the rest of its threads before it. -/
theorem Restart_threadsWaiting
    {ahead rest : List Nat}
    (list : waiting.engine.m_threadsWaiting = ahead ++ th :: rest)
    (outside : th ∉ ahead ∧ th ∉ rest)
    (goesOn : (!(waiting.engine.threads th).suspended || rest.isEmpty) = true) :
    ∃ ahead', (waiting.Restart th).engine.m_threadsWaiting = ahead' ++ rest := by
  have left : waiting.engine.m_threadsWaiting.filter (· ≠ th) =
      ahead ++ rest := by
    have kept : ∀ others : List Nat, th ∉ others →
        others.filter (· ≠ th) = others := fun others absent =>
      List.filter_eq_self.mpr fun other member =>
        decide_eq_true (ne_of_mem_of_not_mem member absent)
    rw [list, List.filter_append, List.filter_cons_of_neg (by simp),
      kept ahead outside.1, kept rest outside.2]
  have stays : CLR_RT_Thread.staysWaiting
      { waiting.engine.threads th with m_status := .TH_S_Ready } =
        (waiting.engine.threads th).suspended := rfl
  rw [Restart, change_threadsWaiting, left, stays]
  rcases Bool.or_eq_true_iff.mp goesOn with runs | last
  · rw [Bool.not_eq_true'] at runs
    rw [runs, if_neg Bool.false_ne_true, List.append_nil]
    exact ⟨ahead, rfl⟩
  · rw [List.isEmpty_iff] at last
    rw [last, List.append_nil]
    exact ⟨_, (List.append_nil _).symm⟩

/-- A pass that restarts no thread twice comes to its end. -/
theorem signalFrom_passes
    {ahead : List Nat}
    (list : waiting.engine.m_threadsWaiting = ahead ++ threads)
    (nodup : waiting.engine.m_threadsWaiting.Nodup)
    (signaled : waiting.HB_Signaled object = true)
    (once : waiting.passesOnce object waiting.HB_Signaled threads = true) :
    ∃ later woken,
      signalFrom object threads.length waiting threads.head? =
          some (later, woken) ∧
        Passed object waiting later threads woken := by
  induction threads generalizing waiting ahead with
  | nil =>
      refine ⟨waiting, [], ?_, Passed.nil⟩
      rw [List.head?_nil, signalFrom]
  | cons th rest inductionHypothesis =>
      have outside : th ∉ ahead ∧ th ∉ rest := by
        rw [list, List.nodup_append] at nodup
        obtain ⟨_, behind, apart⟩ := nodup
        exact ⟨fun member => apart th member th List.mem_cons_self rfl,
          (List.nodup_cons.mp behind).1⟩
      have thNext := Next_eq list outside.1
      rw [List.length_cons, List.head?_cons]
      cases tried : waiting.tries waiting.HB_Signaled th with
      | none =>
          rw [passesOnce, tried] at once
          obtain ⟨later, woken, passes, passed⟩ :=
            @inductionHypothesis waiting (ahead ++ [th])
              (by rw [list, List.append_assoc]; rfl) nodup signaled once
          refine ⟨later, woken, ?_, passed.skip outside.2 tried⟩
          rw [signalFrom_fails signaled tried, thNext, passes]
      | some left =>
          obtain ⟨results, restarted⟩ := tryRestart_eq_some tried
          rw [passesOnce, tried] at once
          obtain ⟨waits, goesOn⟩ := (Bool.and_eq_true _ _).mp once
          have waits := eq_of_beq waits
          cases still : left object with
          | false =>
              exact ⟨_, [th], signalFrom_last restarted still,
                Passed.last tried waits still⟩
          | true =>
              rw [still, Bool.not_true, Bool.false_or,
                Bool.and_eq_true] at goesOn
              obtain ⟨ahead', behind⟩ := @Restart_threadsWaiting
                { waiting with
                  m_waitForObject_Result := results
                  HB_Signaled := left } th ahead rest list outside goesOn.1
              have onceBehind : passesOnce
                  (Restart { waiting with
                    m_waitForObject_Result := results
                    HB_Signaled := left } th) object left rest =
                  waiting.passesOnce object left rest := by
                refine passesOnce_congr (fun other member => ?_) rfl
                have different := ne_of_mem_of_not_mem member outside.2
                exact ⟨change_threads_of_ne different,
                  change_wait_of_ne different⟩
              obtain ⟨later, woken, passes, passed⟩ :=
                inductionHypothesis behind (change_nodup nodup) still
                  (onceBehind.trans goesOn.2)
              refine ⟨later, th :: woken, ?_,
                passed.restart outside.2 tried waits still⟩
              rw [signalFrom_restarts restarted still, thNext, passes]
              rfl

end Passes

end WaitingEngine

end Scheduling

end NanoClr
