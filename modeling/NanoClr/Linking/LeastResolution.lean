import NanoClr.Linking.ResolveAll

/-!
# The least resolution

The assemblies that `ResolveAll` resolves are those that can be resolved one
after the other, each behind its references.  Every round only resolves such
assemblies, and the rounds end where no further one can be.
-/

namespace NanoClr

namespace Linking

variable {Assembly : Type}

/-! ## Resolvable assemblies -/

/-- The assemblies that can be resolved one after the other: linked ones of
which each reference finds an assembly that was resolved before. -/
inductive Resolvable
    (records : AssemblyRecords Assembly)
    (m_assemblies : List (Option Assembly)) : Assembly → Prop where
  | resolve {pASSM : Assembly} (target : CLR_RECORD_ASSEMBLYREF → Assembly) :
      pASSM ∈ m_assemblies.reduceOption →
      (∀ src ∈ records.assemblyRefs pASSM,
        targetOf records m_assemblies src = some (target src)) →
      (∀ src ∈ records.assemblyRefs pASSM,
        Resolvable records m_assemblies (target src)) →
      Resolvable records m_assemblies pASSM

/-- Each reference of an assembly finds a resolved one. -/
def Enabled
    (records : AssemblyRecords Assembly)
    (m_assemblies : List (Option Assembly))
    (resolved : Assembly → Bool)
    (pASSM : Assembly) : Prop :=
  ∀ src ∈ records.assemblyRefs pASSM, ∃ target,
    targetOf records m_assemblies src = some target ∧ resolved target = true

/-- Every reference that is bound is bound to the resolved assembly that it
finds. -/
def Bound
    (records : AssemblyRecords Assembly)
    (m_assemblies : List (Option Assembly))
    (progress : Progress Assembly) : Prop :=
  ∀ pASSM i target, progress.m_target pASSM i = some target →
    ∃ src, (records.assemblyRefs pASSM)[i]? = some src ∧
      targetOf records m_assemblies src = some target ∧
      progress.resolved target = true

/-- All references of an assembly are bound. -/
def AllBound
    (records : AssemblyRecords Assembly)
    (progress : Progress Assembly)
    (pASSM : Assembly) : Prop :=
  ∀ i < (records.assemblyRefs pASSM).length,
    progress.m_target pASSM i ≠ none

/-- The resolved assemblies are linked and resolvable, with their references
bound. -/
structure Sound
    (records : AssemblyRecords Assembly)
    (m_assemblies : List (Option Assembly))
    (progress : Progress Assembly) : Prop where
  bound : Bound records m_assemblies progress
  allBound : ∀ pASSM, progress.resolved pASSM = true →
    AllBound records progress pASSM
  resolvable : ∀ pASSM, progress.resolved pASSM = true →
    Resolvable records m_assemblies pASSM

section Soundness

variable {records : AssemblyRecords Assembly}
  {m_assemblies : List (Option Assembly)} {laterSteps : LaterSteps Assembly}
  {progress : Progress Assembly} {this pASSM : Assembly}
  {references : List CLR_RECORD_ASSEMBLYREF} {src : CLR_RECORD_ASSEMBLYREF}

/-- Resolving behind the references keeps assemblies resolvable. -/
theorem Enabled.resolvable
    {resolved : Assembly → Bool}
    (sound : ∀ pASSM, resolved pASSM = true →
      Resolvable records m_assemblies pASSM)
    (isLinked : pASSM ∈ m_assemblies.reduceOption)
    (enabled : Enabled records m_assemblies resolved pASSM) :
    Resolvable records m_assemblies pASSM := by
  refine .resolve (fun src => (targetOf records m_assemblies src).getD pASSM)
    isLinked ?_ ?_
  · intro src member
    obtain ⟨target, found, -⟩ := enabled src member
    rw [found, Option.getD_some]
  · intro src member
    obtain ⟨target, found, before⟩ := enabled src member
    rw [found, Option.getD_some]
    exact sound target before

/-! ## The references of one assembly -/

variable [DecidableEq Assembly]

/-- What the loop over the references does. -/
structure Binds
    (records : AssemblyRecords Assembly)
    (m_assemblies : List (Option Assembly))
    (this : Assembly)
    (i : Nat)
    (references : List CLR_RECORD_ASSEMBLYREF)
    (before : Progress Assembly)
    (outcome : Progress Assembly × Bool) : Prop where
  resolved : outcome.1.resolved = before.resolved
  keeps : ∀ pASSM j, before.m_target pASSM j ≠ none →
    outcome.1.m_target pASSM j = before.m_target pASSM j
  bound : Bound records m_assemblies outcome.1
  got : outcome.2 = true ↔ ∀ src ∈ references, ∃ target,
    targetOf records m_assemblies src = some target ∧
      before.resolved target = true
  all : outcome.2 = true → ∀ j < references.length,
    outcome.1.m_target this (i + j) ≠ none

theorem resolveReferences_binds
    {i : Nat}
    (bound : Bound records m_assemblies progress)
    (isRest : (records.assemblyRefs this).drop i = references) :
    Binds records m_assemblies this i references progress
      (resolveReferences records m_assemblies this i references progress) := by
  induction references generalizing i progress with
  | nil =>
      refine ⟨rfl, fun _ _ _ => rfl, bound, ?_, ?_⟩
      · simp [resolveReferences]
      · intro _ j inside
        cases inside
  | cons src references inductionHypothesis =>
      have isSrc : (records.assemblyRefs this)[i]? = some src := by
        rw [← List.head?_drop, isRest]
        rfl
      have isNext : (records.assemblyRefs this).drop (i + 1) = references := by
        rw [← List.tail_drop, isRest]
        rfl
      rw [resolveReferences]
      by_cases free : progress.m_target this i = none
      · rw [if_pos free]
        cases search : (targetOf records m_assemblies src).filter
            progress.resolved with
        | none =>
            have rest := inductionHypothesis bound isNext
            refine ⟨rest.resolved, rest.keeps, rest.bound, ?_, ?_⟩
            · constructor
              · intro got
                cases got
              · intro enabled
                obtain ⟨target, found, resolved⟩ :=
                  enabled src List.mem_cons_self
                rw [found, Option.filter_some_pos resolved] at search
                cases search
            · intro got
              cases got
        | some target =>
            obtain ⟨found, resolved⟩ := Option.filter_eq_some_iff.mp search
            have boundNext : Bound records m_assemblies
                (progress.setTarget this i target) := by
              intro pASSM j other isBound
              by_cases same : pASSM = this ∧ j = i
              · obtain ⟨rfl, rfl⟩ := same
                rw [m_target_setTarget] at isBound
                cases isBound
                exact ⟨src, isSrc, found, resolved⟩
              · rw [m_target_setTarget_of_ne fun isThis isPlace =>
                  same ⟨isThis, isPlace⟩] at isBound
                exact bound pASSM j other isBound
            have rest := inductionHypothesis boundNext isNext
            have isBound : (resolveReferences records m_assemblies this (i + 1)
                references (progress.setTarget this i target)).1.m_target this i =
                  some target := by
              rw [rest.keeps] <;> simp
            refine ⟨rest.resolved, ?_, rest.bound, ?_, ?_⟩
            · intro pASSM j before
              have other : pASSM = this → j ≠ i := by
                rintro rfl rfl
                exact before free
              rw [rest.keeps pASSM j, m_target_setTarget_of_ne other]
              rw [m_target_setTarget_of_ne other]
              exact before
            · rw [rest.got, List.forall_mem_cons]
              exact (and_iff_right ⟨target, found, resolved⟩).symm
            · intro got j inside
              cases j with
              | zero => exact Option.ne_none_iff_exists'.mpr ⟨target, isBound⟩
              | succ j =>
                  have later := rest.all got j (Nat.lt_of_succ_lt_succ inside)
                  rw [Nat.add_right_comm] at later
                  exact later
      · rw [if_neg free]
        have rest := inductionHypothesis bound isNext
        obtain ⟨target, isTarget⟩ := Option.ne_none_iff_exists'.mp free
        obtain ⟨src', isSrc', found, resolved⟩ := bound this i target isTarget
        rw [isSrc] at isSrc'
        cases isSrc'
        refine ⟨rest.resolved, rest.keeps, rest.bound, ?_, ?_⟩
        · rw [rest.got, List.forall_mem_cons]
          exact (and_iff_right ⟨target, found, resolved⟩).symm
        · intro got j inside
          cases j with
          | zero => exact fun lost => free ((rest.keeps this i free).symm.trans lost)
          | succ j =>
              have later := rest.all got j (Nat.lt_of_succ_lt_succ inside)
              rw [Nat.add_right_comm] at later
              exact later

/-- What `Resolve_AssemblyRef` does. -/
theorem resolveAssemblyRef_binds
    {outcome : Progress Assembly × Bool}
    (bound : Bound records m_assemblies progress)
    (attempt : Resolve_AssemblyRef records m_assemblies this progress =
      outcome) :
    Binds records m_assemblies this 0 (records.assemblyRefs this) progress
      outcome := by
  rw [← attempt]
  exact resolveReferences_binds bound List.drop_zero

/-- An attempt succeeds when every reference finds a resolved assembly. -/
theorem attempt_got
    {after : Progress Assembly}
    {got : Bool}
    (bound : Bound records m_assemblies progress)
    (attempt : Resolve_AssemblyRef records m_assemblies this progress =
      (after, got)) :
    got = true ↔ Enabled records m_assemblies progress.resolved this :=
  (resolveAssemblyRef_binds bound attempt).got

/-! ## Rounds -/

/-- An attempt leaves the resolved assemblies with their references bound. -/
theorem Sound.attempt
    {after : Progress Assembly}
    {got : Bool}
    (sound : Sound records m_assemblies progress)
    (attempt : Resolve_AssemblyRef records m_assemblies this progress =
      (after, got)) :
    Sound records m_assemblies after := by
  have binds := resolveAssemblyRef_binds sound.bound attempt
  have resolved : after.resolved = progress.resolved := binds.resolved
  refine ⟨binds.bound, ?_, ?_⟩
  · intro pASSM isResolved i inside
    rw [resolved] at isResolved
    have before := sound.allBound pASSM isResolved i inside
    exact fun lost => before ((binds.keeps pASSM i before).symm.trans lost)
  · intro pASSM isResolved
    rw [resolved] at isResolved
    exact sound.resolvable pASSM isResolved

/-- An assembly is marked when its references are bound. -/
theorem Sound.markResolved
    (sound : Sound records m_assemblies progress)
    (allBound : AllBound records progress this)
    (resolvable : Resolvable records m_assemblies this) :
    Sound records m_assemblies (progress.markResolved this) := by
  constructor
  · intro pASSM i target isTarget
    obtain ⟨src, isSrc, found, before⟩ := sound.bound pASSM i target isTarget
    exact ⟨src, isSrc, found, resolved_markResolved.mpr (Or.inr before)⟩
  · intro pASSM isResolved
    rcases resolved_markResolved.mp isResolved with rfl | before
    · exact allBound
    · exact sound.allBound pASSM before
  · intro pASSM isResolved
    rcases resolved_markResolved.mp isResolved with rfl | before
    · exact resolvable
    · exact sound.resolvable pASSM before

/-- The steps behind `Resolve_AssemblyRef` succeed for an assembly whose
references are bound. -/
def LaterStepsSucceed
    (records : AssemblyRecords Assembly)
    (m_assemblies : List (Option Assembly))
    (laterSteps : LaterSteps Assembly) : Prop :=
  ∀ progress pASSM, Sound records m_assemblies progress →
    progress.resolved pASSM = true → laterSteps progress pASSM = .S_OK

/-- The state within a round. -/
structure SoundRound
    (records : AssemblyRecords Assembly)
    (m_assemblies : List (Option Assembly))
    (round : Round Assembly) : Prop where
  sound : Sound records m_assemblies round.progress
  hr : round.hr = .S_OK

theorem SoundRound.resolveOne
    {round : Round Assembly}
    (succeed : LaterStepsSucceed records m_assemblies laterSteps)
    (isLinked : pASSM ∈ m_assemblies.reduceOption)
    (holds : SoundRound records m_assemblies round) :
    SoundRound records m_assemblies
      (resolveOne records m_assemblies laterSteps round pASSM) := by
  rcases resolveOne_cases records m_assemblies laterSteps round pASSM with
    ⟨-, unchanged⟩ | ⟨-, progress, hr, attempt, isResult, outcome⟩ |
    ⟨-, progress, attempt, outcome⟩
  · rw [unchanged]
    exact holds
  · have binds := resolveAssemblyRef_binds holds.sound.bound attempt
    have enabled := (attempt_got holds.sound.bound attempt).mp rfl
    have allBound : AllBound records progress pASSM := by
      intro i inside
      have bound := binds.all rfl i inside
      rw [Nat.zero_add] at bound
      exact bound
    have sound := (holds.sound.attempt attempt).markResolved allBound
      (enabled.resolvable holds.sound.resolvable isLinked)
    rw [outcome]
    refine ⟨sound, ?_⟩
    rw [isResult]
    exact succeed _ pASSM sound (resolved_markResolved.mpr (Or.inl rfl))
  · rw [outcome]
    exact ⟨holds.sound.attempt attempt, holds.hr⟩

theorem startRound_sound
    (succeed : LaterStepsSucceed records m_assemblies laterSteps)
    (sound : Sound records m_assemblies progress) :
    SoundRound records m_assemblies
      (startRound records m_assemblies laterSteps progress) :=
  resolveRound_keeps
    (fun _ isLinked _ holds => holds.resolveOne succeed isLinked) ⟨sound, rfl⟩

/-- No unresolved assembly has all its references resolved. -/
def Stuck
    (records : AssemblyRecords Assembly)
    (m_assemblies : List (Option Assembly))
    (resolved : Assembly → Bool) : Prop :=
  ∀ pASSM ∈ m_assemblies.reduceOption, resolved pASSM = false →
    ¬ Enabled records m_assemblies resolved pASSM

/-- What is stuck stays as it is in a round. -/
theorem startRound_stuck
    (bound : Bound records m_assemblies progress)
    (stuck : Stuck records m_assemblies progress.resolved) :
    (startRound records m_assemblies laterSteps progress).progress.resolved =
        progress.resolved := by
  have kept : Bound records m_assemblies
        (startRound records m_assemblies laterSteps progress).progress ∧
      (startRound records m_assemblies laterSteps progress).progress.resolved =
        progress.resolved := by
    refine resolveRound_keeps
      (motive := fun round => Bound records m_assemblies round.progress ∧
        round.progress.resolved = progress.resolved) ?_ ⟨bound, rfl⟩
    intro pASSM isLinked round holds
    rcases resolveOne_cases records m_assemblies laterSteps round pASSM with
      ⟨-, unchanged⟩ | ⟨before, after, hr, attempt, -, outcome⟩ |
      ⟨-, after, attempt, outcome⟩
    · rw [unchanged]
      exact holds
    · have enabled := (attempt_got holds.1 attempt).mp rfl
      rw [holds.2] at enabled before
      exact absurd enabled (stuck pASSM isLinked before)
    · have binds := resolveAssemblyRef_binds holds.1 attempt
      rw [outcome]
      exact ⟨binds.bound, binds.resolved.trans holds.2⟩
  exact kept.2

/-- What was got is not lost in a round. -/
theorem resolveRound_fGot
    {assemblies : List Assembly}
    {round : Round Assembly}
    (got : round.fGot = true) :
    (resolveRound records m_assemblies laterSteps assemblies
      round).fGot = true := by
  refine resolveRound_keeps (motive := fun round => round.fGot = true) ?_ got
  intro pASSM _ round got
  rcases resolveOne_cases records m_assemblies laterSteps round pASSM with
    ⟨-, unchanged⟩ | ⟨-, after, hr, -, -, outcome⟩ | ⟨-, after, -, outcome⟩
  · rw [unchanged]
    exact got
  · rw [outcome]
  · rw [outcome]
    exact got

/-- A round that gets nothing has come to all assemblies and found none that
can be resolved. -/
theorem resolveRound_noGain
    {assemblies : List Assembly}
    {round : Round Assembly}
    (bound : Bound records m_assemblies round.progress)
    (continues : round.hr = .S_OK)
    (noGain : (resolveRound records m_assemblies laterSteps assemblies
      round).fGot = false) :
    let after := resolveRound records m_assemblies laterSteps assemblies round
    after.progress.resolved = round.progress.resolved ∧
      (∀ pASSM ∈ assemblies, round.progress.resolved pASSM = false →
        ¬ Enabled records m_assemblies round.progress.resolved pASSM) ∧
      (after.fNeedResolution = true ↔ round.fNeedResolution = true ∨
        ∃ pASSM ∈ assemblies, round.progress.resolved pASSM = false) := by
  induction assemblies generalizing round with
  | nil => simp [resolveRound]
  | cons first others inductionHypothesis =>
      rw [resolveRound] at noGain ⊢
      rcases resolveOne_cases records m_assemblies laterSteps round first with
        ⟨before, unchanged⟩ | ⟨before, progress, hr, attempt, -, outcome⟩ |
        ⟨before, progress, attempt, outcome⟩
      · rw [unchanged, if_pos continues] at noGain ⊢
        obtain ⟨same, stuck, needs⟩ :=
          inductionHypothesis bound continues noGain
        refine ⟨same, ?_, ?_⟩
        · rw [List.forall_mem_cons]
          refine ⟨fun unresolved => ?_, stuck⟩
          rw [before] at unresolved
          cases unresolved
        · rw [needs, List.exists_mem_cons_iff, before]
          simp
      · rw [outcome] at noGain
        by_cases fine : hr = .S_OK
        · rw [if_pos fine, resolveRound_fGot rfl] at noGain
          cases noGain
        · rw [if_neg fine] at noGain
          cases noGain
      · have binds := resolveAssemblyRef_binds bound attempt
        have resolved : progress.resolved = round.progress.resolved :=
          binds.resolved
        rw [outcome, if_pos continues] at noGain ⊢
        obtain ⟨same, stuck, needs⟩ := @inductionHypothesis
          { round with progress, fNeedResolution := true }
          binds.bound continues noGain
        simp only [resolved] at same stuck needs
        refine ⟨same, ?_, ?_⟩
        · rw [List.forall_mem_cons]
          refine ⟨fun _ enabled => ?_, stuck⟩
          exact absurd ((attempt_got bound attempt).mpr enabled)
            Bool.false_ne_true
        · rw [needs, List.exists_mem_cons_iff, before]
          simp

/-! ## `ResolveAll` -/

/-- How `ResolveAll` can end: with all assemblies resolved, or with some that
are not and cannot be. -/
structure Ends
    (records : AssemblyRecords Assembly)
    (m_assemblies : List (Option Assembly))
    (outcome : Progress Assembly × HRESULT) : Prop where
  sound : Sound records m_assemblies outcome.1
  stuck : Stuck records m_assemblies outcome.1.resolved
  result :
    (outcome.2 = .S_OK ∧ ∀ pASSM ∈ m_assemblies.reduceOption,
        outcome.1.resolved pASSM = true) ∨
      (outcome.2 = .CLR_E_TYPE_UNAVAILABLE ∧
        ∃ pASSM ∈ m_assemblies.reduceOption,
          outcome.1.resolved pASSM = false)

theorem resolveRounds_eq
    {fOutput : Bool}
    (fine : (startRound records m_assemblies laterSteps progress).hr = .S_OK) :
    resolveRounds records m_assemblies laterSteps progress fOutput =
      if fOutput = true then
        ((startRound records m_assemblies laterSteps progress).progress,
          .CLR_E_TYPE_UNAVAILABLE)
      else if (startRound records m_assemblies laterSteps
          progress).fGot = true then
        resolveRounds records m_assemblies laterSteps
          (startRound records m_assemblies laterSteps progress).progress false
      else if (startRound records m_assemblies laterSteps
          progress).fNeedResolution = true then
        resolveRounds records m_assemblies laterSteps
          (startRound records m_assemblies laterSteps progress).progress true
      else
        ((startRound records m_assemblies laterSteps progress).progress,
          .S_OK) := by
  rw [resolveRounds]
  simp only [fine, ne_eq, not_true_eq_false, if_false, dite_eq_ite]

/-- By induction on the rounds; a round with output only comes where nothing
more can be resolved. -/
theorem resolveRounds_ends
    {fOutput : Bool}
    (succeed : LaterStepsSucceed records m_assemblies laterSteps)
    (sound : Sound records m_assemblies progress)
    (last : fOutput = true →
      Stuck records m_assemblies progress.resolved ∧
        ∃ pASSM ∈ m_assemblies.reduceOption,
          progress.resolved pASSM = false) :
    Ends records m_assemblies
      (resolveRounds records m_assemblies laterSteps progress fOutput) := by
  induction progress, fOutput using
      resolveRounds.induct records m_assemblies laterSteps with
  | case1 progress fOutput round fails =>
      exact absurd (startRound_sound succeed sound).hr fails
  | case2 progress round fine =>
      obtain ⟨stuck, pASSM, isLinked, unresolved⟩ := last rfl
      have next := startRound_sound succeed sound
      have same : (startRound records m_assemblies laterSteps
          progress).progress.resolved = progress.resolved :=
        startRound_stuck sound.bound stuck
      rw [resolveRounds_eq next.hr, if_pos rfl]
      rw [← same] at stuck unresolved
      exact ⟨next.sound, stuck, Or.inr ⟨rfl, pASSM, isLinked, unresolved⟩⟩
  | case3 progress fOutput round fine notLast got inductionHypothesis =>
      have next := startRound_sound succeed sound
      have gained : (startRound records m_assemblies laterSteps
          progress).fGot = true := got
      rw [resolveRounds_eq next.hr, if_neg notLast, if_pos gained]
      exact inductionHypothesis next.sound
        fun output => absurd output Bool.false_ne_true
  | case4 progress fOutput round fine notLast noGain needs inductionHypothesis =>
      have next := startRound_sound succeed sound
      have gainsNot : ¬ (startRound records m_assemblies laterSteps
          progress).fGot = true := noGain
      have needed : (startRound records m_assemblies laterSteps
          progress).fNeedResolution = true := needs
      have kept := resolveRound_noGain sound.bound rfl
        (eq_false_of_ne_true gainsNot)
      have same : (startRound records m_assemblies laterSteps
          progress).progress.resolved = progress.resolved := kept.1
      have unresolved := (kept.2.2.mp needed).resolve_left Bool.false_ne_true
      rw [resolveRounds_eq next.hr, if_neg notLast, if_neg gainsNot,
        if_pos needed]
      apply inductionHypothesis next.sound
      intro _
      have stuck : Stuck records m_assemblies progress.resolved := kept.2.1
      rw [← same] at stuck
      refine ⟨stuck, ?_⟩
      obtain ⟨pASSM, isLinked, isUnresolved⟩ := unresolved
      exact ⟨pASSM, isLinked, (congrFun same pASSM).trans isUnresolved⟩
  | case5 progress fOutput round fine notLast noGain needsNot =>
      have next := startRound_sound succeed sound
      have gainsNot : ¬ (startRound records m_assemblies laterSteps
          progress).fGot = true := noGain
      have notNeeded : ¬ (startRound records m_assemblies laterSteps
          progress).fNeedResolution = true := needsNot
      have kept := resolveRound_noGain sound.bound rfl
        (eq_false_of_ne_true gainsNot)
      have same : (startRound records m_assemblies laterSteps
          progress).progress.resolved = progress.resolved := kept.1
      have all : ∀ pASSM ∈ m_assemblies.reduceOption,
          progress.resolved pASSM = true := by
        intro pASSM isLinked
        by_contra unresolved
        exact notNeeded (kept.2.2.mpr
          (Or.inr ⟨pASSM, isLinked, eq_false_of_ne_true unresolved⟩))
      rw [resolveRounds_eq next.hr, if_neg notLast, if_neg gainsNot,
        if_neg notNeeded]
      have stuck : Stuck records m_assemblies progress.resolved := kept.2.1
      rw [← same] at stuck all
      exact ⟨next.sound, stuck, Or.inl ⟨rfl, all⟩⟩

omit [DecidableEq Assembly] in
/-- Where nothing more can be resolved, all resolvable assemblies are. -/
theorem Stuck.resolved
    {resolved : Assembly → Bool}
    (stuck : Stuck records m_assemblies resolved)
    (resolvable : Resolvable records m_assemblies pASSM) :
    resolved pASSM = true := by
  induction resolvable with
  | resolve target isLinked found _ inductionHypothesis =>
      by_contra unresolved
      refine stuck _ isLinked (eq_false_of_ne_true unresolved) ?_
      intro src member
      exact ⟨target src, found src member, inductionHypothesis src member⟩

end Soundness

/-! ## The slots -/

section Slots

variable {records : AssemblyRecords Assembly} {order order' : List Assembly}

theorem link_free (linked : List Assembly) (assm : Assembly) (free : Nat) :
    Link (linked.map some ++ List.replicate (free + 1) none) assm =
      (linked ++ [assm]).map some ++ List.replicate free none := by
  induction linked with
  | nil => rfl
  | cons first linked inductionHypothesis =>
      rw [List.map_cons, List.cons_append, Link, inductionHypothesis]
      rfl

theorem link_full (linked : List Assembly) (assm : Assembly) :
    Link (linked.map some) assm = linked.map some := by
  induction linked with
  | nil => rfl
  | cons first linked inductionHypothesis =>
      rw [List.map_cons, Link, inductionHypothesis]

theorem foldl_link (linked : List Assembly) (free : Nat) :
    order.foldl Link (linked.map some ++ List.replicate free none) =
      (linked ++ order.take free).map some ++
        List.replicate (free - order.length) none := by
  induction order generalizing linked free with
  | nil => simp
  | cons assm order inductionHypothesis =>
      rw [List.foldl_cons]
      cases free with
      | zero =>
          have full := inductionHypothesis linked 0
          rw [List.replicate_zero, List.append_nil] at full ⊢
          rw [link_full, full]
          simp
      | succ free =>
          rw [link_free, inductionHypothesis]
          simp

/-- The linked assemblies are the first ones, as many as there are slots. -/
theorem reduceOption_linkAll :
    (linkAll order).reduceOption = order.take c_MaxAssemblies := by
  have slots := @foldl_link Assembly order [] c_MaxAssemblies
  rw [List.map_nil, List.nil_append, List.nil_append] at slots
  rw [linkAll, slots, List.reduceOption_append, List.reduceOption_replicate_none,
    List.append_nil, List.reduceOption, List.filterMap_map]
  exact List.filterMap_some

/-! ## Other orders -/

/-- No two of the assemblies have the same name and version. -/
def Distinguished
    (records : AssemblyRecords Assembly)
    (linked : List Assembly) : Prop :=
  ∀ pASSM ∈ linked, ∀ other ∈ linked,
    records.m_szName pASSM = records.m_szName other →
      records.version pASSM = records.version other → pASSM = other

/-- A reference finds the linked assembly with its name and version. -/
theorem targetOf_eq_some_iff
    (distinguished :
      Distinguished records (order.take c_MaxAssemblies))
    {src : CLR_RECORD_ASSEMBLYREF}
    {target : Assembly} :
    targetOf records (linkAll order) src = some target ↔
      target ∈ order.take c_MaxAssemblies ∧
        records.m_szName target = src.name ∧
        records.version target = src.version := by
  have fits : ∀ pASSM, Fits records src.name (some src.version) true pASSM =
      true ↔ records.m_szName pASSM = src.name ∧
        records.version pASSM = src.version := by
    intro pASSM
    simp [Fits]
  rw [targetOf, FindAssembly, reduceOption_linkAll]
  constructor
  · intro found
    exact ⟨List.mem_of_find?_eq_some found,
      (fits target).mp (List.find?_some found)⟩
  · rintro ⟨isLinked, isName, isVersion⟩
    cases found : (order.take c_MaxAssemblies).find?
        (Fits records src.name (some src.version) true) with
    | none =>
        have missing := List.find?_eq_none.mp found target isLinked
        exact absurd ((fits target).mpr ⟨isName, isVersion⟩) missing
    | some other =>
        have same := (fits other).mp (List.find?_some found)
        rw [distinguished other (List.mem_of_find?_eq_some found) target
          isLinked (same.1.trans isName.symm) (same.2.trans isVersion.symm)]

/-- The references find the same assemblies in every order of the linked
ones. -/
theorem targetOf_perm
    (distinguished :
      Distinguished records (order.take c_MaxAssemblies))
    (sameLinked :
      (order'.take c_MaxAssemblies).Perm (order.take c_MaxAssemblies))
    (src : CLR_RECORD_ASSEMBLYREF) :
    targetOf records (linkAll order') src =
      targetOf records (linkAll order) src := by
  have distinguished' : Distinguished records
      (order'.take c_MaxAssemblies) := by
    intro pASSM isLinked other otherLinked
    exact distinguished pASSM (sameLinked.mem_iff.mp isLinked) other
      (sameLinked.mem_iff.mp otherLinked)
  apply Option.ext
  intro target
  rw [targetOf_eq_some_iff distinguished', targetOf_eq_some_iff distinguished,
    sameLinked.mem_iff]

theorem Resolvable.perm
    {pASSM : Assembly}
    (distinguished :
      Distinguished records (order.take c_MaxAssemblies))
    (sameLinked :
      (order'.take c_MaxAssemblies).Perm (order.take c_MaxAssemblies))
    (resolvable : Resolvable records (linkAll order') pASSM) :
    Resolvable records (linkAll order) pASSM := by
  induction resolvable with
  | resolve target isLinked found _ inductionHypothesis =>
      refine .resolve target ?_ ?_ inductionHypothesis
      · rw [reduceOption_linkAll] at isLinked ⊢
        exact sameLinked.mem_iff.mp isLinked
      · intro src member
        rw [← targetOf_perm distinguished sameLinked]
        exact found src member

end Slots

/-! ## The result -/

/-- The outcome for an order: the assemblies that are resolved are those that
can be resolved one after the other, each reference of them is bound to the
assembly that it finds, and the result says whether one is left. -/
structure ResolvesLeast
    (records : AssemblyRecords Assembly)
    (order : List Assembly)
    (outcome : Progress Assembly × HRESULT) : Prop where
  resolved : ∀ pASSM, outcome.1.resolved pASSM = true ↔
    Resolvable records (linkAll order) pASSM
  bound : ∀ pASSM, outcome.1.resolved pASSM = true →
    ∀ i src, (records.assemblyRefs pASSM)[i]? = some src →
      ∃ target, outcome.1.m_target pASSM i = some target ∧
        targetOf records (linkAll order) src = some target
  result : outcome.2 = .CLR_E_TYPE_UNAVAILABLE ↔
    ∃ pASSM ∈ order.take c_MaxAssemblies, outcome.1.resolved pASSM = false
  success : outcome.2 = .S_OK ∨ outcome.2 = .CLR_E_TYPE_UNAVAILABLE

/-- Two outcomes with the same resolved assemblies, whose references are bound
to the same assemblies. -/
structure SameResolution
    (records : AssemblyRecords Assembly)
    (outcome outcome' : Progress Assembly × HRESULT) : Prop where
  resolved : ∀ pASSM, outcome'.1.resolved pASSM = outcome.1.resolved pASSM
  bound : ∀ pASSM, outcome.1.resolved pASSM = true →
    ∀ i < (records.assemblyRefs pASSM).length,
      outcome'.1.m_target pASSM i = outcome.1.m_target pASSM i

section Result

variable [DecidableEq Assembly] {records : AssemblyRecords Assembly}
  {laterSteps : LaterSteps Assembly} {order order' : List Assembly}

omit [DecidableEq Assembly] in
theorem sound_unlinked (m_assemblies : List (Option Assembly)) :
    Sound records m_assemblies unlinked := by
  constructor
  · intro pASSM i target isTarget
    cases isTarget
  · intro pASSM resolved
    cases resolved
  · intro pASSM resolved
    cases resolved

theorem resolveAll_resolvesLeast
    (succeed : LaterStepsSucceed records (linkAll order) laterSteps) :
    ResolvesLeast records order (ResolveAll records laterSteps order) := by
  have ends : Ends records (linkAll order)
      (ResolveAll records laterSteps order) :=
    resolveRounds_ends succeed (sound_unlinked _)
      fun output => absurd output Bool.false_ne_true
  constructor
  · intro pASSM
    exact ⟨ends.sound.resolvable pASSM, ends.stuck.resolved⟩
  · intro pASSM resolved i src isSrc
    obtain ⟨inside, -⟩ := List.getElem?_eq_some_iff.mp isSrc
    obtain ⟨target, isTarget⟩ := Option.ne_none_iff_exists'.mp
      (ends.sound.allBound pASSM resolved i inside)
    obtain ⟨src', isSrc', found, -⟩ := ends.sound.bound pASSM i target isTarget
    rw [isSrc] at isSrc'
    cases isSrc'
    exact ⟨target, isTarget, found⟩
  · rw [← reduceOption_linkAll]
    rcases ends.result with ⟨isResult, all⟩ | ⟨isResult, left⟩
    · rw [isResult]
      constructor
      · intro different
        cases different
      · rintro ⟨pASSM, isLinked, unresolved⟩
        rw [all pASSM isLinked] at unresolved
        cases unresolved
    · exact ⟨fun _ => left, fun _ => isResult⟩
  · rcases ends.result with ⟨isResult, -⟩ | ⟨isResult, -⟩
    · exact Or.inl isResult
    · exact Or.inr isResult

/-- The least resolution is reached in every order, and where no two assemblies
have the same name and version it is the same in all of them. -/
theorem resolveAll_least
    (succeed : ∀ order' : List Assembly,
      (order'.take c_MaxAssemblies).Perm (order.take c_MaxAssemblies) →
        LaterStepsSucceed records (linkAll order') laterSteps) :
    ResolvesLeast records order (ResolveAll records laterSteps order) ∧
      (Distinguished records (order.take c_MaxAssemblies) →
        ∀ order' : List Assembly,
          (order'.take c_MaxAssemblies).Perm (order.take c_MaxAssemblies) →
            SameResolution records (ResolveAll records laterSteps order)
              (ResolveAll records laterSteps order')) := by
  have least := resolveAll_resolvesLeast (succeed order (.refl _))
  refine ⟨least, ?_⟩
  intro distinguished order' sameLinked
  have least' := resolveAll_resolvesLeast (succeed order' sameLinked)
  have distinguished' : Distinguished records
      (order'.take c_MaxAssemblies) := by
    intro pASSM isLinked other otherLinked
    exact distinguished pASSM (sameLinked.mem_iff.mp isLinked) other
      (sameLinked.mem_iff.mp otherLinked)
  have resolved : ∀ pASSM,
      (ResolveAll records laterSteps order').1.resolved pASSM =
        (ResolveAll records laterSteps order).1.resolved pASSM := by
    intro pASSM
    rw [Bool.eq_iff_iff, least.resolved, least'.resolved]
    exact ⟨fun resolvable => resolvable.perm distinguished sameLinked,
      fun resolvable => resolvable.perm distinguished' sameLinked.symm⟩
  refine ⟨resolved, ?_⟩
  intro pASSM isResolved i inside
  have isSrc := List.getElem?_eq_getElem inside
  obtain ⟨target, isTarget, found⟩ := least.bound pASSM isResolved i _ isSrc
  obtain ⟨target', isTarget', found'⟩ :=
    least'.bound pASSM ((resolved pASSM).trans isResolved) i _ isSrc
  rw [targetOf_perm distinguished sameLinked, found] at found'
  rw [isTarget, isTarget', found']

end Result

/-! ## Assemblies in different orders -/

/-- `1.0.0.0`. -/
def firstVersion : CLR_RECORD_VERSION := ⟨1, 0, 0, 0⟩

/-- `"A"`, `"B"` and so on. -/
def letterName (letter : Nat) : List UInt8 := [0x41 + UInt8.ofNat letter]

/-- The later steps fail where a reference is not bound, and for one assembly,
in which a referenced type is missing. -/
def stepsWithout {count : Nat}
    (records : AssemblyRecords (Fin count))
    (broken : Option (Fin count)) : LaterSteps (Fin count) :=
  fun progress pASSM =>
    if some pASSM = broken then .CLR_E_FAIL
    else if ∀ i < (records.assemblyRefs pASSM).length,
        progress.m_target pASSM i ≠ none then .S_OK
    else .CLR_E_FAIL

theorem stepsWithout_none
    {count : Nat}
    {records : AssemblyRecords (Fin count)}
    {m_assemblies : List (Option (Fin count))} :
    LaterStepsSucceed records m_assemblies (stepsWithout records none) := by
  intro progress pASSM sound resolved
  have bound := sound.allBound pASSM resolved
  rw [stepsWithout, if_neg (Option.some_ne_none pASSM)]
  exact if_pos bound

/-- A library, an application that refers to it, two assemblies that refer to
each other, and one that refers to another version of the library. -/
def cyclicAssemblies : AssemblyRecords (Fin 5) where
  m_szName pASSM := letterName pASSM
  version _ := firstVersion
  assemblyRefs
    | 0 => []
    | 1 => [⟨letterName 0, firstVersion⟩]
    | 2 => [⟨letterName 0, firstVersion⟩, ⟨letterName 3, firstVersion⟩]
    | 3 => [⟨letterName 2, firstVersion⟩]
    | 4 => [⟨letterName 0, ⟨2, 0, 0, 0⟩⟩]

theorem resolveAll_least_cyclic :
    ResolvesLeast cyclicAssemblies [4, 3, 2, 1, 0]
        (ResolveAll cyclicAssemblies (stepsWithout cyclicAssemblies none)
          [4, 3, 2, 1, 0]) ∧
      (Distinguished cyclicAssemblies [4, 3, 2, 1, 0] →
        ∀ order' : List (Fin 5),
          (order'.take c_MaxAssemblies).Perm [4, 3, 2, 1, 0] →
            SameResolution cyclicAssemblies
              (ResolveAll cyclicAssemblies
                (stepsWithout cyclicAssemblies none) [4, 3, 2, 1, 0])
              (ResolveAll cyclicAssemblies
                (stepsWithout cyclicAssemblies none) order')) :=
  resolveAll_least fun _ _ => stepsWithout_none

/-- Two assemblies with the same name and version, the first of which refers to
a missing one, and an assembly that refers to that name. -/
def twinAssemblies : AssemblyRecords (Fin 3) where
  m_szName
    | 0 | 1 => letterName 0
    | 2 => letterName 1
  version _ := firstVersion
  assemblyRefs
    | 0 => [⟨letterName 2, firstVersion⟩]
    | 1 => []
    | 2 => [⟨letterName 0, firstVersion⟩]

/-- Three assemblies without references. -/
def looseAssemblies : AssemblyRecords (Fin 3) where
  m_szName pASSM := letterName pASSM
  version _ := firstVersion
  assemblyRefs _ := []

theorem twinAssemblies_notResolvable :
    ¬ Resolvable twinAssemblies (linkAll [0, 1, 2]) 2 := by
  intro resolvable
  cases resolvable with
  | resolve target _ found earlier =>
      have member : (⟨letterName 0, firstVersion⟩ : CLR_RECORD_ASSEMBLYREF) ∈
          twinAssemblies.assemblyRefs 2 := List.mem_cons_self
      have isFirst : targetOf twinAssemblies (linkAll [0, 1, 2])
          ⟨letterName 0, firstVersion⟩ = some 0 := by
        decide
      have before := earlier _ member
      rw [← Option.some_inj.mp (isFirst.symm.trans (found _ member))] at before
      cases before with
      | resolve target _ found _ =>
          have missing : targetOf twinAssemblies (linkAll [0, 1, 2])
              ⟨letterName 2, firstVersion⟩ = none := by
            decide
          have needed := found ⟨letterName 2, firstVersion⟩ List.mem_cons_self
          rw [missing] at needed
          cases needed

theorem twinAssemblies_resolvable :
    Resolvable twinAssemblies (linkAll [1, 0, 2]) 2 := by
  have twin : Resolvable twinAssemblies (linkAll [1, 0, 2]) 1 := by
    refine .resolve (fun _ => 1) (by decide) ?_ ?_
    · intro src member
      cases member
    · intro src member
      cases member
  refine .resolve (fun _ => 1) (by decide) (by decide) ?_
  intro _ _
  exact twin

/-- With the twin that can be resolved behind the other one, the assembly that
refers to them is not resolved; and where a step fails for the first assembly,
the others are not resolved and the result is another one. -/
theorem resolveAll_notLeast :
    ¬ SameResolution twinAssemblies
        (ResolveAll twinAssemblies (stepsWithout twinAssemblies none)
          [0, 1, 2])
        (ResolveAll twinAssemblies (stepsWithout twinAssemblies none)
          [1, 0, 2]) ∧
      ¬ ResolvesLeast looseAssemblies [0, 1, 2]
        (ResolveAll looseAssemblies (stepsWithout looseAssemblies (some 0))
          [0, 1, 2]) := by
  constructor
  · intro same
    have first : ResolvesLeast twinAssemblies [0, 1, 2] _ :=
      resolveAll_resolvesLeast stepsWithout_none
    have second : ResolvesLeast twinAssemblies [1, 0, 2] _ :=
      resolveAll_resolvesLeast stepsWithout_none
    have resolved := (second.resolved 2).mpr twinAssemblies_resolvable
    rw [same.resolved 2] at resolved
    exact twinAssemblies_notResolvable ((first.resolved 2).mp resolved)
  · intro least
    have fails : (startRound looseAssemblies (linkAll [0, 1, 2])
        (stepsWithout looseAssemblies (some 0)) unlinked).hr =
          .CLR_E_FAIL := by
      decide
    have outcome : ResolveAll looseAssemblies
        (stepsWithout looseAssemblies (some 0)) [0, 1, 2] =
          ((startRound looseAssemblies (linkAll [0, 1, 2])
            (stepsWithout looseAssemblies (some 0)) unlinked).progress,
            .CLR_E_FAIL) := by
      rw [ResolveAll, resolveRounds]
      simp [fails]
    have unresolved : ∃ pASSM ∈ [0, 1, 2].take c_MaxAssemblies,
        (ResolveAll looseAssemblies (stepsWithout looseAssemblies (some 0))
          [0, 1, 2]).1.resolved pASSM = false := by
      rw [outcome]
      exact ⟨1, by decide, by decide⟩
    have unavailable := least.result.mpr unresolved
    rw [outcome] at unavailable
    cases unavailable

end Linking

end NanoClr
