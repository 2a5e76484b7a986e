import NetSim.Lib.Machine
import NetSim.Spec.Smf

/-!
# The record of a UE after a handover

The response to a modify-bearer request deletes the record of the UE and adds one under the serving
gNB, without a bearer. So the record follows a handover only if it leads back to the serving gNB and
loses no bearer.

* `findRound_run`: the lookup of an SMF ends in the first round or not at all.
* `modifyBearer_spec`: what a response does to the records.
* `follows_iff_proper`: which steps of a run keep the records right.
-/

namespace NetSim.Smf

/-! ## Lookups -/

/-- The lookup ends in the first round or not at all. -/
theorem findRound_run (smf : ℕ × ℕ) (l : List SmfVar) (n : ℕ) :
    Loop.run (findRound smf) (n + 1) l = Loop.run (findRound smf) 1 l := by
  cases l with
  | nil => rfl
  | cons var rest =>
    by_cases hsmf : var.smf = smf
    · have hround : findRound smf (var :: rest) = .inr (some var) := if_pos hsmf
      rw [Loop.run_inr hround, Loop.run_inr hround]
    · have hround : findRound smf (var :: rest) = .inl (var :: rest) := if_neg hsmf
      have hstuck : ∀ n, Loop.run (findRound smf) n (var :: rest) = none := by
        intro n
        induction n with
        | zero => rfl
        | succ n ih => rw [Loop.run_inl hround, ih]
      rw [hstuck, hstuck]

variable {s s' : Store} {smf ue : ℕ × ℕ} {var : SmfVar}

theorem smf_of_find (h : s.findSmfVar smf = some var) : var.smf = smf := by
  unfold Store.findSmfVar at h
  cases hl : s.smfNasSmGet smf.1 with
  | nil =>
    rw [hl] at h
    cases h
  | cons v rest =>
    rw [hl] at h
    by_cases hsmf : v.smf = smf
    · have hround : findRound smf (v :: rest) = .inr (some v) := if_pos hsmf
      rw [Loop.run_inr hround] at h
      exact Option.some.inj h ▸ hsmf
    · have hround : findRound smf (v :: rest) = .inl (v :: rest) := if_neg hsmf
      rw [Loop.run_inl hround] at h
      cases h

theorem find_setSmfVar (h : var.smf = smf) : (s.setSmfVar smf var).findSmfVar smf = some var := by
  unfold Store.findSmfVar Store.setSmfVar
  dsimp only
  rw [Function.update_self]
  have hround : findRound smf (var :: (s.smfNasSmGet smf.1).tail) = .inr (some var) := if_pos h
  rw [Loop.run_inr hround]
  rfl

/-- An operation that changes the records of the UEs of an SMF. -/
def Changes (smf : ℕ × ℕ) (f : List UeInfo → List UeInfo) (s s' : Store) : Prop :=
  ∃ var var', s.findSmfVar smf = some var ∧ s'.findSmfVar smf = some var' ∧ var'.ueInfo = f var.ueInfo

theorem Changes.trans {f g : List UeInfo → List UeInfo} {s'' : Store} (h : Changes smf f s s')
    (h' : Changes smf g s' s'') : Changes smf (g ∘ f) s s'' := by
  obtain ⟨var, var', hvar, hvar', hf⟩ := h
  obtain ⟨var₁, var'', hvar₁, hvar'', hg⟩ := h'
  obtain rfl := Option.some.inj (hvar'.symm.trans hvar₁)
  exact ⟨var, var'', hvar, hvar'', hg.trans (congrArg g hf)⟩

/-- An operation finds the SMF and changes what it has found. -/
theorem changes_of_set {f : List UeInfo → List UeInfo} (change : SmfVar → SmfVar)
    (hsmf : ∀ var, (change var).smf = var.smf) (hue : ∀ var, (change var).ueInfo = f var.ueInfo)
    (h : ((s.findSmfVar smf).bind fun var => some (s.setSmfVar smf (change var))) = some s') :
    Changes smf f s s' := by
  obtain ⟨var, hvar, h⟩ := Option.bind_eq_some_iff.1 h
  obtain rfl := Option.some.inj h
  exact ⟨var, _, hvar, find_setSmfVar ((hsmf var).trans (smf_of_find hvar)), hue var⟩

/-- **What a response does to the records of the SMF.** -/
theorem modifyBearer_spec {coreInterface : ℕ → ℕ} {keepsNext : Bool} {hdr : HandoverHdr}
    (h : s.modifyBearerResponse coreInterface keepsNext hdr = some s') :
    Changes (hdr.associateSmfId, coreInterface hdr.associateSmfId)
      (fun l => removeUe keepsNext hdr.ue l ++ [⟨hdr.ue, hdr.serveringCell, []⟩]) s s' := by
  unfold Store.modifyBearerResponse at h
  obtain ⟨found, hfound, h⟩ := Option.bind_eq_some_iff.1 h
  obtain ⟨s₁, hs₁, h⟩ := Option.bind_eq_some_iff.1 h
  obtain ⟨s₂, hs₂, h⟩ := Option.bind_eq_some_iff.1 h
  have hgnb : Changes (hdr.associateSmfId, coreInterface hdr.associateSmfId) id s s₁ := by
    split at hs₁
    · exact changes_of_set (fun var => { var with gnbList := var.gnbList ++ [⟨hdr.targetCell, _⟩] })
        (fun _ => rfl) (fun _ => rfl) hs₁
    · obtain rfl := Option.some.inj hs₁
      obtain ⟨var, hvar, -⟩ := Option.bind_eq_some_iff.1 hfound
      exact ⟨var, var, hvar, hvar, rfl⟩
  have hdelete : Changes (hdr.associateSmfId, coreInterface hdr.associateSmfId)
      (removeUe keepsNext hdr.ue) s₁ s₂ :=
    changes_of_set (fun var => { var with ueInfo := removeUe keepsNext hdr.ue var.ueInfo })
      (fun _ => rfl) (fun _ => rfl) hs₂
  have hadd : Changes (hdr.associateSmfId, coreInterface hdr.associateSmfId)
      (fun l => l ++ [⟨hdr.ue, hdr.serveringCell, []⟩]) s₂ s' :=
    changes_of_set (fun var => { var with ueInfo := var.ueInfo ++ [⟨hdr.ue, hdr.serveringCell, []⟩] })
      (fun _ => rfl) (fun _ => rfl) h
  exact (hgnb.trans hdelete).trans hadd

/-- The records of a UE. -/
def recordsOf (ue : ℕ × ℕ) (l : List UeInfo) : List UeInfo := l.filter fun info => info.ue = ue

/-- **What the deletion leaves**: with links that are kept it deletes all records of the UE, and the first one otherwise. -/
theorem recordsOf_removeUe (keepsNext : Bool) (ue : ℕ × ℕ) (l : List UeInfo) :
    recordsOf ue (removeUe keepsNext ue l) = if keepsNext then [] else (recordsOf ue l).tail := by
  induction l with
  | nil => cases keepsNext <;> rfl
  | cons info rest ih =>
    unfold removeUe recordsOf
    by_cases hue : info.ue = ue
    · rw [if_pos hue, List.filter_cons_of_pos (by simpa using hue)]
      cases keepsNext with
      | false => rfl
      | true => exact ih
    · rw [if_neg hue, List.filter_cons_of_neg (by simpa using hue), List.filter_cons_of_neg (by simpa using hue)]
      exact ih

/-! ## Runs -/

/-- The bearers that are recorded for the UE. -/
def bearers (ue : ℕ × ℕ) (l : List UeInfo) : List BearerContext :=
  (l.filter fun info => info.ue = ue).flatMap (·.associateBearer)

/-- The UE is recorded under the gNB and under no other one. -/
def RecordedUnder (ue gnb : ℕ × ℕ) (l : List UeInfo) : Prop :=
  (∃ info ∈ l, info.ue = ue) ∧ ∀ info ∈ l, info.ue = ue → info.gnb = gnb

/-- The stores, with the handover that the last step was about and the records from before it. -/
structure SmfRun where
  store : Store
  last : Option (HandoverHdr × List UeInfo)

inductive SmfEvent
  | createSession (hdr : CoreHdr) (bearer : List BearerContext)
  | modifyBearer (hdr : HandoverHdr)

namespace SmfRun

variable (coreInterface : ℕ → ℕ) (keepsNext : Bool)

/-- The SMF that a handover is about. -/
def smfOf (hdr : HandoverHdr) : ℕ × ℕ := (hdr.associateSmfId, coreInterface hdr.associateSmfId)

def step (s : SmfRun) : SmfEvent → Option SmfRun
  | .createSession hdr bearer => (s.store.createSessionRequestRecv hdr bearer).map (⟨·, none⟩)
  | .modifyBearer hdr => do
    let store ← s.store.modifyBearerResponse coreInterface keepsNext hdr
    let var ← s.store.findSmfVar (smfOf coreInterface hdr)
    return ⟨store, some (hdr, var.ueInfo)⟩

/-- No gNB and no UE has been recorded. -/
def Initial (s : SmfRun) : Prop :=
  s.last = none ∧ ∀ id, ∀ var ∈ s.store.smfNasSmGet id, var.gnbList = [] ∧ var.ueInfo = []

def machine : Machine SmfRun SmfEvent := ⟨Initial, step coreInterface keepsNext⟩

/-- **What a response is to leave**: the UE is recorded under the target gNB and under no other one, and the
bearers that it had before are still recorded for it. -/
def Follows (s : SmfRun) : Prop :=
  ∀ hdr before, s.last = some (hdr, before) →
    ∃ var, s.store.findSmfVar (smfOf coreInterface hdr) = some var ∧
      RecordedUnder hdr.ue hdr.targetCell var.ueInfo ∧ bearers hdr.ue before ⊆ bearers hdr.ue var.ueInfo

/-- The records of a UE from before a response. If links are kept, all of them go, so none may have a bearer. Otherwise the
first one goes, so the others have to be under the gNB and to have its bearers. -/
def Survives (keepsNext : Bool) (gnb : ℕ × ℕ) : List UeInfo → Prop
  | [] => True
  | first :: rest =>
    if keepsNext then ∀ info ∈ first :: rest, info.associateBearer = []
    else (∀ info ∈ rest, info.gnb = gnb) ∧ first.associateBearer ⊆ rest.flatMap (·.associateBearer)

/-- The handover leads to the serving gNB, and the records of the UE survive it. -/
def Proper (s : SmfRun) : SmfEvent → Prop
  | .createSession _ _ => True
  | .modifyBearer hdr => hdr.serveringCell = hdr.targetCell ∧
      ∀ var ∈ s.store.findSmfVar (smfOf coreInterface hdr),
        Survives keepsNext hdr.targetCell (recordsOf hdr.ue var.ueInfo)

variable {coreInterface keepsNext}

theorem survives_iff (keepsNext : Bool) (ue gnb : ℕ × ℕ) (l : List UeInfo) :
    Survives keepsNext gnb (recordsOf ue l) ↔ (∀ info ∈ removeUe keepsNext ue l, info.ue = ue → info.gnb = gnb) ∧
      bearers ue l ⊆ bearers ue (removeUe keepsNext ue l) := by
  have hleft : (∀ info ∈ removeUe keepsNext ue l, info.ue = ue → info.gnb = gnb) ↔
      ∀ info ∈ recordsOf ue (removeUe keepsNext ue l), info.gnb = gnb := by
    simp only [recordsOf, List.mem_filter, decide_eq_true_eq, and_imp]
  have hbearers : ∀ l, bearers ue l = (recordsOf ue l).flatMap (·.associateBearer) := fun _ => rfl
  rw [hleft, hbearers, hbearers, recordsOf_removeUe]
  cases recordsOf ue l with
  | nil => cases keepsNext <;> simp [Survives]
  | cons first rest =>
    cases keepsNext with
    | true =>
      simp only [Survives, if_true, List.flatMap_nil, List.subset_nil, List.flatMap_eq_nil_iff]
      exact (and_iff_right fun info hinfo => absurd hinfo List.not_mem_nil).symm
    | false =>
      simp only [Survives, Bool.false_eq_true, if_false, List.tail_cons, List.flatMap_cons, List.append_subset]
      exact and_congr_right fun _ => (and_iff_left (List.Subset.refl _)).symm

theorem bearers_append (ue : ℕ × ℕ) (l : List UeInfo) (gnb : ℕ × ℕ) :
    bearers ue (l ++ [⟨ue, gnb, []⟩]) = bearers ue l := by
  unfold bearers
  simp only [List.filter_append, List.filter_cons, decide_true, if_true, List.filter_nil,
    List.flatMap_append, List.flatMap_cons, List.flatMap_nil, List.append_nil]

/-- A response leaves the records right exactly if the step is proper. -/
theorem follows_modifyBearer {s s' : SmfRun} {hdr : HandoverHdr}
    (hs : step coreInterface keepsNext s (.modifyBearer hdr) = some s') :
    s'.Follows coreInterface ↔ Proper coreInterface keepsNext s (.modifyBearer hdr) := by
  obtain ⟨store, hstore, hs⟩ := Option.bind_eq_some_iff.1 hs
  obtain ⟨var, hvar, hs⟩ := Option.bind_eq_some_iff.1 hs
  obtain rfl := Option.some.inj hs
  obtain ⟨var₁, var', hvar₁, hvar', hueInfo⟩ := modifyBearer_spec hstore
  obtain rfl := Option.some.inj (hvar.symm.trans hvar₁)
  have hfollows : Follows coreInterface ⟨store, some (hdr, var.ueInfo)⟩ ↔
      RecordedUnder hdr.ue hdr.targetCell var'.ueInfo ∧
        bearers hdr.ue var.ueInfo ⊆ bearers hdr.ue var'.ueInfo := by
    constructor
    · intro h
      obtain ⟨var₂, hvar₂, hrest⟩ := h hdr var.ueInfo rfl
      obtain rfl := Option.some.inj (hvar'.symm.trans hvar₂)
      exact hrest
    · intro h hdr' before heq
      obtain ⟨rfl, rfl⟩ := Prod.mk.inj (Option.some.inj heq)
      exact ⟨var', hvar', h⟩
  have hproper : Proper coreInterface keepsNext s (.modifyBearer hdr) ↔ hdr.serveringCell = hdr.targetCell ∧
      Survives keepsNext hdr.targetCell (recordsOf hdr.ue var.ueInfo) := by
    unfold Proper
    dsimp only
    rw [hvar]
    simp only [Option.mem_def, Option.some.injEq, forall_eq']
  rw [hfollows, hproper, survives_iff, hueInfo, bearers_append, ← and_assoc]
  refine and_congr_left fun _ => ?_
  unfold RecordedUnder
  simp only [List.mem_append, List.mem_singleton, or_imp, forall_and, forall_eq, true_imp_iff]
  constructor
  · rintro ⟨-, hleft, hnew⟩
    exact ⟨hnew, hleft⟩
  · rintro ⟨hnew, hleft⟩
    exact ⟨⟨_, .inr rfl, rfl⟩, hleft, hnew⟩

theorem follows_step {s s' : SmfRun} {e : SmfEvent} (hs : step coreInterface keepsNext s e = some s') :
    s'.Follows coreInterface ↔ Proper coreInterface keepsNext s e := by
  cases e with
  | createSession hdr bearer =>
    obtain ⟨store, -, rfl⟩ := Option.map_eq_some_iff.1 hs
    exact ⟨fun _ => trivial, fun _ hdr before h => absurd h (Option.some_ne_none _).symm⟩
  | modifyBearer hdr => exact follows_modifyBearer hs

/-- **The record follows the UE** in every run whose handovers lead to the serving gNB and lose no bearer;
and every other handover ends that. -/
theorem follows_iff_proper {s : SmfRun}
    (h : (machine coreInterface keepsNext).ReachOn (Proper coreInterface keepsNext) s) :
    s.Follows coreInterface ∧ ∀ e s', step coreInterface keepsNext s e = some s' →
      (s'.Follows coreInterface ↔ Proper coreInterface keepsNext s e) := by
  refine ⟨?_, fun e s' hs => follows_step hs⟩
  apply h.inv
  · intro s h0 hdr before hlast
    exact absurd (h0.1.symm.trans hlast) (Option.some_ne_none _).symm
  · intro s e s' _ hok hs
    exact (follows_step hs).2 hok

/-- One SMF, the device 2 with the interface 1. -/
def oneSmf : SmfRun := ⟨⟨fun id => if id = 2 then [⟨(2, 1), [], []⟩] else []⟩, none⟩

theorem oneSmf_init (b : Bool) : (machine (fun _ => 1) b).init oneSmf := by
  refine ⟨rfl, fun id var hvar => ?_⟩
  unfold oneSmf at hvar
  dsimp only at hvar
  split at hvar
  · obtain rfl := List.mem_singleton.1 hvar
    exact ⟨rfl, rfl⟩
  · exact absurd hvar List.not_mem_nil

/-- UE 20 registers with gNB 10, with one bearer. -/
def registration : SmfEvent := .createSession ⟨(2, 1), (10, 1), (20, 1)⟩ [⟨5⟩]

theorem follows_iff_proper_registration : ∃ s,
    (machine (fun _ => 1) true).ReachOn (Proper (fun _ => 1) true) s ∧ s.Follows (fun _ => 1) ∧
      ∀ e s', step (fun _ => 1) true s e = some s' →
        (s'.Follows (fun _ => 1) ↔ Proper (fun _ => 1) true s e) := by
  obtain ⟨s, hs⟩ : ∃ s, step (fun _ => 1) true oneSmf registration = some s :=
    Option.isSome_iff_exists.1 (by decide)
  have hproper : Proper (fun _ => 1) true oneSmf registration := trivial
  have hreach : (machine (fun _ => 1) true).ReachOn (Proper (fun _ => 1) true) s :=
    .step (.init (oneSmf_init true)) hproper hs
  exact ⟨s, hreach, follows_iff_proper hreach⟩

/-- The handover of UE 20 from gNB 10 to gNB 11. -/
def handover : HandoverHdr := ⟨2, (10, 1), (11, 1), (20, 1)⟩

theorem not_follows_handover (b : Bool) :
    ¬ ∀ s, (machine (fun _ => 1) b).Reach s → s.Follows (fun _ => 1) := by
  intro hall
  obtain ⟨s, hs, hlast, hgnb⟩ := Machine.Reach.exists_of_exec
    (P := fun s => s.last.map (·.1) = some handover ∧
      (s.store.findSmfVar (2, 1)).map (fun var => var.ueInfo.map (·.gnb)) = some [(10, 1)])
    [registration, .modifyBearer handover] (.init (oneSmf_init b)) (by cases b <;> decide)
  obtain ⟨⟨hdr, before⟩, hlast, hhdr⟩ := Option.map_eq_some_iff.1 hlast
  obtain rfl : hdr = handover := hhdr
  obtain ⟨var, hvar, hunder, -⟩ := hall s hs handover before hlast
  have hvar : s.store.findSmfVar (2, 1) = some var := hvar
  rw [hvar] at hgnb
  obtain ⟨info, hinfo, hue⟩ := hunder.1
  have hmem : info.gnb ∈ [(10, 1)] := by
    rw [← Option.some.inj hgnb]
    exact List.mem_map_of_mem hinfo
  exact absurd ((hunder.2 info hinfo hue).symm.trans (List.mem_singleton.1 hmem)) (by decide)

/-- After the handover, the UE is recorded under gNB 10, whether or not removed elements keep their links. -/
theorem recorded_under_serving :
    (¬ ∀ s, (machine (fun _ => 1) true).Reach s → s.Follows (fun _ => 1)) ∧
      ¬ ∀ s, (machine (fun _ => 1) false).Reach s → s.Follows (fun _ => 1) :=
  ⟨not_follows_handover true, not_follows_handover false⟩

end SmfRun

end NetSim.Smf
