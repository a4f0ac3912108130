import Mathlib.Algebra.Ring.Int.Defs
import Mathlib.Algebra.Ring.Nat
import Mathlib.Data.List.Basic
import Mathlib.Data.List.Count
import Mathlib.Data.List.ReduceOption
import Mathlib.Logic.Function.Basic

/-!
# Resolving assemblies

`Link` puts an assembly in the first free slot of the type system.
`ResolveAll` goes through the slots in rounds and resolves the assemblies whose
references all lead to resolved ones, until a round gains nothing.
-/

namespace NanoClr

namespace Linking

/-- The results of resolving. -/
inductive HRESULT where
  | S_OK
  | CLR_E_FAIL
  | CLR_E_OUT_OF_MEMORY
  | CLR_E_TYPE_UNAVAILABLE
deriving DecidableEq

/-- The version of an assembly. -/
structure CLR_RECORD_VERSION where
  iMajorVersion : UInt16
  iMinorVersion : UInt16
  iBuildNumber : UInt16
  iRevisionNumber : UInt16
deriving DecidableEq

/-- A reference to an assembly by its name and version. -/
structure CLR_RECORD_ASSEMBLYREF where
  name : List UInt8
  version : CLR_RECORD_VERSION
deriving DecidableEq

/-- The names, versions and references of assemblies. -/
structure AssemblyRecords (Assembly : Type) where
  m_szName : Assembly → List UInt8
  version : Assembly → CLR_RECORD_VERSION
  assemblyRefs : Assembly → List CLR_RECORD_ASSEMBLYREF

/-- The assemblies with the flag `Resolved`, and the targets of
`m_pCrossReference_AssemblyRef`. -/
structure Progress (Assembly : Type) where
  resolved : Assembly → Bool
  m_target : Assembly → Nat → Option Assembly

section TypeSystem

variable {Assembly : Type} [DecidableEq Assembly]

/-! ## Linking -/

/-- The number of slots. -/
def c_MaxAssemblies : Nat := 64

/-- `Link`: an assembly for which there is no slot is not linked. -/
def Link : List (Option Assembly) → Assembly → List (Option Assembly)
  | [], _ => []
  | none :: m_assemblies, assm => some assm :: m_assemblies
  | some other :: m_assemblies, assm => some other :: Link m_assemblies assm

/-- The slots after assemblies were linked one after the other. -/
def linkAll (order : List Assembly) : List (Option Assembly) :=
  order.foldl Link (List.replicate c_MaxAssemblies none)

variable (records : AssemblyRecords Assembly)

/-- Whether an assembly has the name and a version that will do. -/
def Fits (szName : List UInt8) (ver : Option CLR_RECORD_VERSION)
    (fExact : Bool) (pASSM : Assembly) : Bool :=
  records.m_szName pASSM = szName &&
    match ver with
    | none => true
    | some ver =>
        if fExact then records.version pASSM = ver
        else
          ver.iMajorVersion = (records.version pASSM).iMajorVersion &&
            ver.iMinorVersion = (records.version pASSM).iMinorVersion

/-- `FindAssembly`: the first assembly in the slots that fits. -/
def FindAssembly (m_assemblies : List (Option Assembly))
    (szName : List UInt8) (ver : Option CLR_RECORD_VERSION)
    (fExact : Bool) : Option Assembly :=
  m_assemblies.reduceOption.find? (Fits records szName ver fExact)

/-! ## Resolving -/

variable (m_assemblies : List (Option Assembly))

/-- The assembly that a reference asks for. -/
def targetOf (src : CLR_RECORD_ASSEMBLYREF) : Option Assembly :=
  FindAssembly records m_assemblies src.name (some src.version) true

/-- `dst->m_target = target`. -/
def Progress.setTarget (progress : Progress Assembly) (this : Assembly)
    (i : Nat) (target : Assembly) : Progress Assembly :=
  { progress with
    m_target := Function.update progress.m_target this
      (Function.update (progress.m_target this) i (some target)) }

/-- The loop of `Resolve_AssemblyRef` over the references from a number on; the
second component is `fGot`. -/
def resolveReferences (this : Assembly) :
    Nat → List CLR_RECORD_ASSEMBLYREF → Progress Assembly →
      Progress Assembly × Bool
  | _, [], progress => (progress, true)
  | i, src :: references, progress =>
      if progress.m_target this i = none then
        match (targetOf records m_assemblies src).filter progress.resolved with
        | none =>
            ((resolveReferences this (i + 1) references progress).1, false)
        | some target =>
            resolveReferences this (i + 1) references
              (progress.setTarget this i target)
      else resolveReferences this (i + 1) references progress

/-- `Resolve_AssemblyRef`. -/
def Resolve_AssemblyRef (this : Assembly) (progress : Progress Assembly) :
    Progress Assembly × Bool :=
  resolveReferences records m_assemblies this 0 (records.assemblyRefs this)
    progress

/-- `pASSM->m_flags |= CLR_RT_Assembly::Resolved`. -/
def Progress.markResolved (progress : Progress Assembly) (pASSM : Assembly) :
    Progress Assembly :=
  { progress with resolved := Function.update progress.resolved pASSM true }

/-- What a round leaves: `fGot`, `fNeedResolution` and the result of the steps
that may end it. -/
structure Round (Assembly : Type) where
  progress : Progress Assembly
  fGot : Bool
  fNeedResolution : Bool
  hr : HRESULT

/-- What the steps behind `Resolve_AssemblyRef` return for an assembly: those
for its references to types, fields and methods, the hashes and the static
fields. -/
abbrev LaterSteps (Assembly : Type) := Progress Assembly → Assembly → HRESULT

variable (laterSteps : LaterSteps Assembly)

/-- What a round does with one assembly. -/
def resolveOne (round : Round Assembly) (pASSM : Assembly) : Round Assembly :=
  if round.progress.resolved pASSM then round
  else
    let (progress, got) :=
      Resolve_AssemblyRef records m_assemblies pASSM round.progress
    if got then
      let progress := progress.markResolved pASSM
      { progress, fGot := true, fNeedResolution := true
        hr := laterSteps progress pASSM }
    else { round with progress, fNeedResolution := true }

/-- A round over assemblies, up to a step that fails. -/
def resolveRound : List Assembly → Round Assembly → Round Assembly
  | [], round => round
  | pASSM :: others, round =>
      let round := resolveOne records m_assemblies laterSteps round pASSM
      if round.hr = .S_OK then resolveRound others round else round

/-- A round from its start. -/
def startRound (progress : Progress Assembly) : Round Assembly :=
  resolveRound records m_assemblies laterSteps m_assemblies.reduceOption
    { progress, fGot := false, fNeedResolution := false, hr := .S_OK }

/-- The assemblies in the slots that are not resolved. -/
def unresolved (progress : Progress Assembly) : Nat :=
  m_assemblies.reduceOption.countP fun pASSM => !progress.resolved pASSM

/-! ## Progress -/

section Rounds

variable {records : AssemblyRecords Assembly}
  {m_assemblies : List (Option Assembly)} {laterSteps : LaterSteps Assembly}
  {progress : Progress Assembly} {this pASSM : Assembly}

@[simp] theorem m_target_setTarget (i : Nat) (target : Assembly) :
    (progress.setTarget this i target).m_target this i = some target := by
  simp [Progress.setTarget]

theorem m_target_setTarget_of_ne
    {i j : Nat}
    {target : Assembly}
    (other : pASSM = this → j ≠ i) :
    (progress.setTarget this i target).m_target pASSM j =
      progress.m_target pASSM j := by
  by_cases same : pASSM = this
  · subst same
    simp [Progress.setTarget, other rfl]
  · simp [Progress.setTarget, same]

@[simp] theorem resolved_resolveReferences (i : Nat)
    (references : List CLR_RECORD_ASSEMBLYREF) :
    (resolveReferences records m_assemblies this i references
      progress).1.resolved = progress.resolved := by
  induction references generalizing i progress with
  | nil => rfl
  | cons src references inductionHypothesis =>
      rw [resolveReferences]
      by_cases bound : progress.m_target this i = none
      · rw [if_pos bound]
        cases (targetOf records m_assemblies src).filter progress.resolved with
        | none => exact inductionHypothesis (i + 1)
        | some target => exact inductionHypothesis (i + 1)
      · rw [if_neg bound]
        exact inductionHypothesis (i + 1)

@[simp] theorem resolved_resolveAssemblyRef :
    (Resolve_AssemblyRef records m_assemblies this progress).1.resolved =
      progress.resolved :=
  resolved_resolveReferences 0 _

theorem resolved_markResolved :
    (progress.markResolved this).resolved pASSM = true ↔
      pASSM = this ∨ progress.resolved pASSM = true := by
  rw [Progress.markResolved]
  by_cases same : pASSM = this
  · subst same
    simp
  · simp [same]

variable (records m_assemblies laterSteps) in
/-- What an assembly in a round can come to: it was resolved before, or it is
resolved now, or its references are not all bound. -/
theorem resolveOne_cases (round : Round Assembly) (pASSM : Assembly) :
    (round.progress.resolved pASSM = true ∧
        resolveOne records m_assemblies laterSteps round pASSM = round) ∨
      (round.progress.resolved pASSM = false ∧
        ∃ progress hr,
          Resolve_AssemblyRef records m_assemblies pASSM round.progress =
              (progress, true) ∧
            hr = laterSteps (progress.markResolved pASSM) pASSM ∧
            resolveOne records m_assemblies laterSteps round pASSM =
              ⟨progress.markResolved pASSM, true, true, hr⟩) ∨
      (round.progress.resolved pASSM = false ∧
        ∃ progress,
          Resolve_AssemblyRef records m_assemblies pASSM round.progress =
              (progress, false) ∧
            resolveOne records m_assemblies laterSteps round pASSM =
              { round with progress, fNeedResolution := true }) := by
  rw [resolveOne]
  cases before : round.progress.resolved pASSM with
  | true => exact Or.inl ⟨rfl, if_pos rfl⟩
  | false =>
      rw [if_neg Bool.false_ne_true]
      cases attempt : Resolve_AssemblyRef records m_assemblies pASSM
          round.progress with
      | mk progress got =>
          cases got with
          | true => exact Or.inr (Or.inl ⟨rfl, progress, _, rfl, rfl, rfl⟩)
          | false => exact Or.inr (Or.inr ⟨rfl, progress, rfl, rfl⟩)

theorem resolved_of_attempt
    {progress' : Progress Assembly}
    {got : Bool}
    (attempt : Resolve_AssemblyRef records m_assemblies this progress =
      (progress', got)) :
    progress'.resolved = progress.resolved := by
  have same : (Resolve_AssemblyRef records m_assemblies this
      progress).1.resolved = progress.resolved := resolved_resolveAssemblyRef
  rw [attempt] at same
  exact same

/-- What each assembly keeps, a round keeps. -/
theorem resolveRound_keeps
    {motive : Round Assembly → Prop}
    {assemblies : List Assembly}
    {round : Round Assembly}
    (one : ∀ pASSM ∈ assemblies, ∀ round : Round Assembly, motive round →
      motive (resolveOne records m_assemblies laterSteps round pASSM))
    (holds : motive round) :
    motive (resolveRound records m_assemblies laterSteps assemblies round) := by
  induction assemblies generalizing round with
  | nil => exact holds
  | cons first others inductionHypothesis =>
      have next := one first List.mem_cons_self round holds
      rw [resolveRound]
      by_cases continues : (resolveOne records m_assemblies laterSteps round
          first).hr = .S_OK
      · rw [if_pos continues]
        exact inductionHypothesis
          (fun pASSM member => one pASSM (List.mem_cons_of_mem _ member)) next
      · rw [if_neg continues]
        exact next

/-- Resolved assemblies stay resolved. -/
theorem resolved_resolveOne
    {round : Round Assembly}
    (before : round.progress.resolved pASSM = true) :
    (resolveOne records m_assemblies laterSteps round
      this).progress.resolved pASSM = true := by
  rcases resolveOne_cases records m_assemblies laterSteps round this with
    ⟨-, unchanged⟩ | ⟨-, progress, hr, attempt, -, outcome⟩ |
    ⟨-, progress, attempt, outcome⟩
  · rw [unchanged]
    exact before
  · rw [outcome, resolved_markResolved, resolved_of_attempt attempt]
    exact Or.inr before
  · rw [outcome]
    exact (congrFun (resolved_of_attempt attempt) pASSM).trans before

/-- Resolved assemblies stay so, and where something was got, one was
resolved. -/
structure Advances
    (assemblies : List Assembly)
    (before after : Round Assembly) : Prop where
  stays : ∀ pASSM, before.progress.resolved pASSM = true →
    after.progress.resolved pASSM = true
  got : after.fGot = true → before.fGot = true ∨
    ∃ pASSM ∈ assemblies, before.progress.resolved pASSM = false ∧
      after.progress.resolved pASSM = true

theorem resolveRound_advances
    (assemblies : List Assembly)
    (round : Round Assembly) :
    Advances assemblies round
      (resolveRound records m_assemblies laterSteps assemblies round) := by
  apply resolveRound_keeps
  · intro first member next advances
    refine ⟨fun pASSM before =>
      resolved_resolveOne (advances.stays pASSM before), ?_⟩
    intro got
    rcases resolveOne_cases records m_assemblies laterSteps next first with
      ⟨-, unchanged⟩ | ⟨before, progress, hr, -, -, outcome⟩ |
      ⟨-, progress, attempt, outcome⟩
    · rw [unchanged] at got ⊢
      exact advances.got got
    · refine Or.inr ⟨first, member, ?_, ?_⟩
      · by_contra already
        rw [Bool.not_eq_false] at already
        rw [advances.stays first already] at before
        cases before
      · rw [outcome, resolved_markResolved]
        exact Or.inl rfl
    · rw [outcome] at got ⊢
      rw [resolved_of_attempt attempt]
      exact advances.got got
  · exact ⟨fun _ => id, Or.inl⟩

omit [DecidableEq Assembly] in
/-- A predicate that implies another one and fails where that holds counts
fewer. -/
theorem countP_lt_of_mem
    {assemblies : List Assembly}
    {fewer more : Assembly → Bool}
    (implies : ∀ pASSM ∈ assemblies, fewer pASSM = true → more pASSM = true)
    (member : pASSM ∈ assemblies)
    (inMore : more pASSM = true)
    (notInFewer : fewer pASSM = false) :
    assemblies.countP fewer < assemblies.countP more := by
  obtain ⟨ahead, behind, rfl⟩ := List.append_of_mem member
  have before := List.countP_mono_left fun other isAhead =>
    implies other (List.mem_append_left _ isAhead)
  have after := List.countP_mono_left fun other isBehind =>
    implies other (List.mem_append_right _ (List.mem_cons_of_mem _ isBehind))
  rw [List.countP_append, List.countP_append, List.countP_cons,
    List.countP_cons, inMore, notInFewer]
  simp only [Bool.false_eq_true, if_false, if_true]
  omega

/-- A round leaves no more assemblies unresolved, and fewer if it got
something. -/
theorem unresolved_startRound (progress : Progress Assembly) :
    let round := startRound records m_assemblies laterSteps progress
    unresolved m_assemblies round.progress ≤
        unresolved m_assemblies progress ∧
      (round.fGot = true →
        unresolved m_assemblies round.progress <
          unresolved m_assemblies progress) := by
  intro round
  have advances : Advances m_assemblies.reduceOption
      ⟨progress, false, false, .S_OK⟩ round :=
    resolveRound_advances _ _
  have fewer : ∀ pASSM ∈ m_assemblies.reduceOption,
      (!round.progress.resolved pASSM) = true →
        (!progress.resolved pASSM) = true := by
    intro pASSM _ still
    rw [Bool.not_eq_true'] at still ⊢
    by_contra already
    rw [Bool.not_eq_false] at already
    rw [advances.stays pASSM already] at still
    cases still
  constructor
  · exact List.countP_mono_left fewer
  · intro got
    rcases advances.got got with no | ⟨pASSM, member, before, after⟩
    · cases no
    · refine countP_lt_of_mem fewer member ?_ ?_
      · exact (Bool.not_eq_true' _).mpr before
      · exact (Bool.not_eq_false' _).mpr after

end Rounds

/-! ## `ResolveAll` -/

/-- The loop over rounds, with `fOutput`. -/
def resolveRounds (progress : Progress Assembly) (fOutput : Bool) :
    Progress Assembly × HRESULT :=
  let round := startRound records m_assemblies laterSteps progress
  if round.hr ≠ .S_OK then (round.progress, round.hr)
  else if _last : fOutput = true then
    (round.progress, .CLR_E_TYPE_UNAVAILABLE)
  else if _got : round.fGot = true then resolveRounds round.progress false
  else if round.fNeedResolution then resolveRounds round.progress true
  else (round.progress, .S_OK)
termination_by
  2 * unresolved m_assemblies progress + cond fOutput 0 1
decreasing_by
  · have fewer := (@unresolved_startRound _ _ records m_assemblies laterSteps
      progress).2 _got
    rw [eq_false_of_ne_true _last, cond_false]
    omega
  · have fewer := (@unresolved_startRound _ _ records m_assemblies laterSteps
      progress).1
    rw [eq_false_of_ne_true _last, cond_false, cond_true]
    omega

/-- Nothing is resolved and no reference bound. -/
def unlinked : Progress Assembly where
  resolved _ := false
  m_target _ _ := none

/-- `ResolveAll` after assemblies were linked in an order. -/
def ResolveAll (order : List Assembly) : Progress Assembly × HRESULT :=
  resolveRounds records (linkAll order) laterSteps unlinked false

end TypeSystem

end Linking

end NanoClr
