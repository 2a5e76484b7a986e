import NetSim.Proof.Flooding
import NetSim.Proof.LsaCompare
import NetSim.Spec.OspfLsdb

/-!
# The database under updates
-/

/-!
## What a step of the database stores

The database maps keys to stored instances. Installing an LSA, and raising the sequence number of the
router's own one, change the instance of one key (`AreaDs.Stores`), and flooding changes the lists of the
interfaces and their neighbours only (`lsaFlood_frame`).
-/

namespace NetSim.Ospf

open FirstMatch

/-! ## The database as a table -/

/-- Type, advertising router and link state id. -/
abbrev LsaKey := LsType × UInt32 × UInt32

def LsaHdr.key (lsa : LsaHdr) : LsaKey :=
  (lsa.lsType, lsa.advertisingRouter.intIp, lsa.linkStateId.intIp)

def LsaHdr.hasIds (ids : UInt32 × UInt32) (lsa : LsaHdr) : Bool :=
  lsa.advertisingRouter.intIp == ids.1 && lsa.linkStateId.intIp == ids.2

/-- The stored instance of a key. -/
def AreaDs.stored (area : AreaDs) (k : LsaKey) : Option LsaHdr :=
  (area.list? k.1).bind fun list => list.find? (LsaHdr.hasIds k.2)

/-- Whether the database has a list for a type. -/
def LsType.IsStored : LsType → Prop
  | .asExternalLsa | .undefined => False
  | _ => True

instance (t : LsType) : Decidable t.IsStored := by
  cases t <;> unfold LsType.IsStored <;> infer_instance

variable {area : AreaDs} {lsa : LsaHdr} {t t' : LsType} {list : List LsaHdr}

theorem LsaHdr.sameId_eq (lsa : LsaHdr) : lsa.sameId = LsaHdr.hasIds lsa.key.2 := by
  funext hdr
  unfold LsaHdr.sameId LsaHdr.hasIds LsaHdr.key Ip.same
  rw [BEq.comm, @BEq.comm _ _ _ lsa.linkStateId.intIp]

@[simp] theorem LsaHdr.hasIds_key (lsa : LsaHdr) : lsa.hasIds lsa.key.2 = true := by
  simp [LsaHdr.hasIds, LsaHdr.key]

theorem LsaHdr.hasIds_disjoint {ids ids' : UInt32 × UInt32} (h : ids ≠ ids') (hdr : LsaHdr)
    (hids : hdr.hasIds ids = true) : hdr.hasIds ids' = false := by
  unfold LsaHdr.hasIds at hids ⊢
  rw [Bool.and_eq_true, beq_iff_eq, beq_iff_eq] at hids
  rw [← Bool.not_eq_true, Bool.and_eq_true, beq_iff_eq, beq_iff_eq, hids.1, hids.2]
  exact fun heq => h (Prod.ext heq.1 heq.2)

theorem lsdbLookup_eq (area : AreaDs) (lsa : LsaHdr) :
    lsdbLookup area lsa.lsType lsa.advertisingRouter lsa.linkStateId = area.stored lsa.key := rfl

theorem stored_of_list (h : area.list? lsa.lsType = some list) :
    area.stored lsa.key = list.find? lsa.sameId := by
  have hlist : area.list? lsa.key.1 = some list := h
  unfold AreaDs.stored
  rw [hlist, LsaHdr.sameId_eq]
  rfl

theorem stored_of_none (h : area.list? lsa.lsType = none) : area.stored lsa.key = none := by
  have hlist : area.list? lsa.key.1 = none := h
  unfold AreaDs.stored
  rw [hlist]
  rfl

theorem isSome_list?_iff (area : AreaDs) : (area.list? t).isSome ↔ t.IsStored := by
  cases t <;> simp [AreaDs.list?, LsType.IsStored]

theorem list?_withList (h : (area.list? t).isSome) : (area.withList t list).list? t = some list := by
  cases t with
  | asExternalLsa => cases h
  | undefined => cases h
  | _ => rfl

theorem list?_withList_of_ne (h : t ≠ t') : (area.withList t list).list? t' = area.list? t' := by
  cases t with
  | asExternalLsa => rfl
  | undefined => rfl
  | _ => cases t' <;> first | rfl | exact absurd rfl h

/-- The instance of the key of an LSA becomes another one. -/
def AreaDs.Stores (area area' : AreaDs) (lsa new : LsaHdr) : Prop :=
  area'.stored lsa.key = some new ∧ ∀ k, lsa.key ≠ k → area'.stored k = area.stored k

/-- Changing the list of a type at the entry of a key. -/
theorem stores_withList {list' : List LsaHdr} {new : LsaHdr} (h : area.list? lsa.lsType = some list)
    (hnew : list'.find? lsa.sameId = some new)
    (hframe : ∀ ids, lsa.key.2 ≠ ids → list'.find? (LsaHdr.hasIds ids) = list.find? (LsaHdr.hasIds ids)) :
    area.Stores (area.withList lsa.lsType list') lsa new := by
  have hsome : (area.list? lsa.lsType).isSome := by simp [h]
  refine ⟨by rw [stored_of_list (list?_withList hsome)]; exact hnew, ?_⟩
  intro k hk
  unfold AreaDs.stored
  by_cases ht : lsa.lsType = k.1
  · have hids : lsa.key.2 ≠ k.2 := fun h2 => hk (Prod.ext ht h2)
    rw [← ht, list?_withList hsome, h]
    exact hframe k.2 hids
  · rw [list?_withList_of_ne ht]

theorem AreaDs.Stores.trans {area₁ area₂ area₃ : AreaDs} {new new' : LsaHdr}
    (h : area₁.Stores area₂ lsa new) (h' : area₂.Stores area₃ lsa new') : area₁.Stores area₃ lsa new' :=
  ⟨h'.1, fun k hk => (h'.2 k hk).trans (h.2 k hk)⟩

theorem AreaDs.stored_congr {area area' : AreaDs} (h : ∀ t, area'.list? t = area.list? t) :
    area'.stored = area.stored := by
  funext k
  unfold AreaDs.stored
  rw [h]

theorem AreaDs.Stores.congr {area area₁ area₂ : AreaDs} {new : LsaHdr} (h : area.Stores area₁ lsa new)
    (hlists : ∀ t, area₂.list? t = area₁.list? t) : area.Stores area₂ lsa new := by
  unfold AreaDs.Stores
  rw [AreaDs.stored_congr hlists]
  exact h

/-! ## Installation and own instances -/

/-- What `ospf_lsdb_install` leaves for the key of an LSA. -/
def installed (ospf : Pds) (now : ℚ) (lsa : LsaHdr) (old : Option LsaHdr) : LsaHdr :=
  old.elim { lsa with time := now } fun o =>
    if isContentChanged ospf lsa o then { lsa with time := now } else o

theorem find?_replaceFirst_ids {new old : LsaHdr} (hnew : new.key.2 = lsa.key.2)
    (hold : list.find? lsa.sameId = some old) :
    (replaceFirst lsa.sameId new list).find? lsa.sameId = some new ∧
      ∀ ids, lsa.key.2 ≠ ids →
        (replaceFirst lsa.sameId new list).find? (LsaHdr.hasIds ids) = list.find? (LsaHdr.hasIds ids) := by
  have hself : lsa.sameId new = true := by
    rw [LsaHdr.sameId_eq, ← hnew]
    exact LsaHdr.hasIds_key new
  refine ⟨find?_replaceFirst hold hself, ?_⟩
  intro ids hids
  rw [LsaHdr.sameId_eq] at hself ⊢
  exact find?_replaceFirst_of_disjoint (fun hdr => LsaHdr.hasIds_disjoint hids hdr)
    (LsaHdr.hasIds_disjoint hids new hself)

/-- The list that `ospf_lsdb_install` leaves. -/
theorem lsdbInstall_stores (ospf : Pds) (now : ℚ) (maxAgeList : List LsaHdr)
    (h : area.list? lsa.lsType = some list) :
    area.Stores (area.withList lsa.lsType (lsdbInstall ospf now lsa list maxAgeList).2.1) lsa
      (installed ospf now lsa (area.stored lsa.key)) := by
  rw [stored_of_list h]
  unfold lsdbInstall installed
  dsimp only
  cases hold : list.find? lsa.sameId with
  | none =>
    dsimp only [Option.elim_none]
    have hnew : lsa.sameId { lsa with time := now } = true := by
      rw [LsaHdr.sameId_eq]
      exact LsaHdr.hasIds_key { lsa with time := now }
    refine stores_withList h ?_ ?_
    · rw [List.find?_append, hold, List.find?_cons_of_pos hnew]
      rfl
    · intro ids hids
      rw [LsaHdr.sameId_eq] at hnew
      rw [List.find?_append, List.find?_cons_of_neg (by simp [LsaHdr.hasIds_disjoint hids _ hnew])]
      simp
  | some old =>
    dsimp only [Option.elim_some]
    by_cases hchanged : isContentChanged ospf lsa old = true
    · rw [if_pos hchanged, if_pos hchanged]
      have hkey : ({ lsa with time := now } : LsaHdr).key.2 = lsa.key.2 := rfl
      obtain ⟨hnew, hframe⟩ := find?_replaceFirst_ids hkey hold
      exact stores_withList h hnew hframe
    · rw [if_neg hchanged, if_neg hchanged]
      exact stores_withList h hold fun ids _ => rfl

theorem install_stores {s : Router} (now : ℚ) (h : s.area.list? lsa.lsType = some list) :
    s.area.Stores (s.install now lsa list).2.area lsa
      (installed s.ospf now lsa (s.area.stored lsa.key)) :=
  (lsdbInstall_stores s.ospf now s.area.maxAgeList h).congr fun t => by cases t <;> rfl

end NetSim.Ospf

/-!
## What an update stores

An update that is not refused installs the LSA, and the router's own LSA then gets a sequence number
above the received one (`lsdbUpdate_stores`).
-/

namespace NetSim.Ospf

open FirstMatch

variable {ospf ospf' : Pds} {areaId : Ip} {lsa : LsaHdr} {srcAddr : Option Ip} {inIf : ℕ} {stack : Stack}
  {now : ℚ}

/-! ## Flooding leaves the settings and the states of the interfaces -/

/-- The settings of the router are the same, and so are the ids and the states of its interfaces. -/
structure Frames (ospf ospf' : Pds) : Prop where
  settings : ∃ ifs, ospf' = { ospf with ospfIf := ifs }
  interfaces : List.Forall₂ (fun i i' : OspfIf => i'.id = i.id ∧ i'.state = i.state)
    ospf.ospfIf ospf'.ospfIf

theorem Frames.refl (ospf : Pds) : Frames ospf ospf :=
  ⟨⟨ospf.ospfIf, rfl⟩, List.forall₂_same.2 fun _ _ => ⟨rfl, rfl⟩⟩

theorem removeFromRxtListIf_frame (area : Ip) (lsa : LsaHdr) (i : OspfIf) :
    (removeFromRxtListIf area lsa i).id = i.id ∧ (removeFromRxtListIf area lsa i).state = i.state := by
  unfold removeFromRxtListIf
  split
  · exact ⟨rfl, rfl⟩
  · exact ⟨rfl, rfl⟩

theorem floodInterface_frame {area : Ip} {i i' : OspfIf} {back : Bool}
    (h : floodInterface ospf area lsa srcAddr inIf i = some (i', back)) :
    i'.id = i.id ∧ i'.state = i.state := by
  unfold floodInterface at h
  split at h
  · obtain ⟨rfl, -⟩ := Prod.mk.inj (Option.some.inj h)
    exact ⟨rfl, rfl⟩
  split at h
  · obtain ⟨rfl, -⟩ := Prod.mk.inj (Option.some.inj h)
    exact ⟨rfl, rfl⟩
  dsimp only at h
  split at h
  · obtain ⟨rfl, -⟩ := Prod.mk.inj (Option.some.inj h)
    exact ⟨rfl, rfl⟩
  unfold floodQueue at h
  simp only [Option.bind_eq_bind, Option.bind_eq_some_iff, Option.pure_def, Option.some.injEq] at h
  obtain ⟨src, -, held, -, h⟩ := h
  split at h
  · obtain ⟨rfl, -⟩ := Prod.mk.inj h
    exact ⟨rfl, rfl⟩
  · obtain ⟨rfl, -⟩ := Prod.mk.inj h
    exact ⟨rfl, rfl⟩

theorem lsaFlood_frame {back : Bool} (h : lsaFlood ospf areaId lsa srcAddr inIf = some (ospf', back)) :
    Frames ospf ospf' := by
  unfold lsaFlood at h
  simp only [Option.bind_eq_bind, Option.bind_eq_some_iff, Option.pure_def, Option.some.injEq] at h
  obtain ⟨flooded, hmap, h⟩ := h
  obtain ⟨rfl, -⟩ := Prod.mk.inj h
  have hall := forall₂_of_mapM hmap
  rw [removeFromRxtList, List.forall₂_map_left_iff] at hall
  refine ⟨⟨_, rfl⟩, ?_⟩
  rw [List.forall₂_map_right_iff]
  refine hall.imp fun i out hout => ?_
  have hi := removeFromRxtListIf_frame areaId lsa i
  have ho := floodInterface_frame hout
  exact ⟨ho.1.trans hi.1, ho.2.trans hi.2⟩

/-- The same interface is found, with the same state. -/
theorem Frames.ifGet (h : Frames ospf ospf') (ifId : ℕ) :
    (Ospf.ifGet ospf' ifId).map OspfIf.state = (Ospf.ifGet ospf ifId).map OspfIf.state := by
  have hifs := h.interfaces
  unfold Ospf.ifGet
  generalize ospf.ospfIf = l at hifs
  generalize ospf'.ospfIf = l' at hifs
  induction hifs with
  | nil => rfl
  | cons hi _ ih =>
    rename_i i i' _ _ _
    by_cases hid : i.id = ifId
    · rw [List.find?_cons_of_pos (by simp [hi.1, hid]), List.find?_cons_of_pos (by simp [hid])]
      exact congrArg some hi.2
    · rw [List.find?_cons_of_neg (by simp [hi.1, hid]), List.find?_cons_of_neg (by simp [hid])]
      exact ih

theorem Frames.isFlush (h : Frames ospf ospf') (lsa : LsaHdr) :
    isFlush stack ospf' lsa = Ospf.isFlush stack ospf lsa := by
  obtain ⟨ifs, hifs⟩ := h.settings
  have hid : ospf'.routerId = ospf.routerId := by rw [hifs]
  have hget := h.ifGet (stack.getInterfaceIdFromIP lsa.linkStateId)
  unfold Ospf.isFlush
  cases lsa.lsType with
  | networkLsa =>
    dsimp only
    rw [hid]
    split
    · have hmap := congrArg (Option.map fun st : IfState =>
        st != .dr && !lsa.advertisingRouter.same ospf.routerId) hget
      rw [Option.map_map, Option.map_map] at hmap
      exact hmap
    · rfl
  | _ => rfl

theorem Frames.isSelfOriginated (h : Frames ospf ospf') (lsa : LsaHdr) :
    isSelfOriginated ospf' stack lsa = Ospf.isSelfOriginated ospf stack lsa := by
  obtain ⟨ifs, rfl⟩ := h.settings
  rfl

/-! ## One update -/

/-- The LSA arrives within `minLSInterval` of the stored instance. -/
def Refused (stack : Stack) (now : ℚ) (s : Router) (lsa : LsaHdr) : Prop :=
  ∃ o ∈ s.area.stored lsa.key, isWithinMinLSInterval stack now s.ospf lsa o = true

/-- The LSA is the router's own and makes it advance the sequence number. -/
def Advances (stack : Stack) (s : Router) (lsa : LsaHdr) : Prop :=
  isSelfOriginated s.ospf stack lsa = true ∧ isFlush stack s.ospf lsa = some false

instance (s : Router) (lsa : LsaHdr) : Decidable (Refused stack now s lsa) :=
  inferInstanceAs (Decidable (∃ o ∈ s.area.stored lsa.key, _))

instance (s : Router) (lsa : LsaHdr) : Decidable (Advances stack s lsa) :=
  inferInstanceAs (Decidable (_ ∧ _))

/-- The instance with a number above the received one. -/
def advanced (lsa m : LsaHdr) : LsaHdr := { m with lsSequenceNumber := lsa.lsSequenceNumber + 1 }

/-- What an update that is not refused stores. -/
def updated (stack : Stack) (now : ℚ) (s : Router) (lsa : LsaHdr) : LsaHdr :=
  if Advances stack s lsa then advanced lsa (installed s.ospf now lsa (s.area.stored lsa.key))
  else installed s.ospf now lsa (s.area.stored lsa.key)

theorem lsaFlush_frame {maxAgeList maxAgeList' : List LsaHdr} {lsa' : LsaHdr}
    (h : lsaFlush ospf areaId maxAgeList lsa = some (ospf', maxAgeList', lsa')) : Frames ospf ospf' := by
  unfold lsaFlush at h
  split at h
  · obtain ⟨rfl, -⟩ := Prod.mk.inj (Option.some.inj h)
    exact Frames.refl ospf
  · simp only [Option.bind_eq_bind, Option.bind_eq_some_iff, Option.pure_def] at h
    obtain ⟨⟨o, b⟩, hflood, h⟩ := h
    obtain ⟨rfl, -⟩ := Prod.mk.inj (Option.some.inj h)
    exact lsaFlood_frame hflood

/-- The update of the router's own LSA flushes it or raises its number. -/
theorem lsdbUpdateSelfOriginated_cases {s s' : Router}
    (h : lsdbUpdateSelfOriginated stack s lsa = some s') :
    (isFlush stack s.ospf lsa = some true ∧ s'.area.stored = s.area.stored) ∨
    (isFlush stack s.ospf lsa = some false ∧
      ∃ old, s.area.stored lsa.key = some old ∧ s.area.Stores s'.area lsa (advanced lsa old)) := by
  unfold lsdbUpdateSelfOriginated at h
  simp only [Option.bind_eq_bind, Option.bind_eq_some_iff, Option.pure_def] at h
  obtain ⟨flush, hflush, h⟩ := h
  cases flush with
  | true =>
    simp only [if_true, Option.bind_eq_some_iff] at h
    obtain ⟨⟨ospf', maxAgeList', lsa'⟩, -, h⟩ := h
    obtain rfl := Option.some.inj h
    exact Or.inl ⟨hflush, AreaDs.stored_congr fun t => by cases t <;> rfl⟩
  | false =>
    simp only [Bool.false_eq_true, if_false, Option.bind_eq_some_iff] at h
    obtain ⟨list, hlist, old, hold, h⟩ := h
    obtain rfl := Option.some.inj h
    refine Or.inr ⟨hflush, old, by rw [stored_of_list hlist]; exact hold, ?_⟩
    have hids : old.key.2 = lsa.key.2 := by
      have hfound := List.find?_some hold
      rw [LsaHdr.sameId_eq] at hfound
      unfold LsaHdr.hasIds at hfound
      rw [Bool.and_eq_true, beq_iff_eq, beq_iff_eq] at hfound
      exact Prod.ext hfound.1 hfound.2
    have hadv : (advanced lsa old).key.2 = lsa.key.2 := hids
    obtain ⟨hnew, hframe⟩ := find?_replaceFirst_ids hadv hold
    exact stores_withList hlist hnew hframe

theorem lsdbUpdateEnd_stores {s s₁ s' : Router} {ret r : Bool} (hframes : Frames s.ospf s₁.ospf)
    (hstores : s.area.Stores s₁.area lsa (installed s.ospf now lsa (s.area.stored lsa.key)))
    (h : lsdbUpdateEnd stack s₁ lsa (some ret) = some (s', r)) :
    s.area.Stores s'.area lsa (updated stack now s lsa) := by
  have hadv : Advances stack s lsa ↔ Advances stack s₁ lsa := by
    unfold Advances
    rw [hframes.isSelfOriginated, hframes.isFlush]
  unfold lsdbUpdateEnd at h
  unfold updated
  dsimp only at h
  split at h
  · rename_i hown
    rw [Option.map_eq_some_iff] at h
    obtain ⟨s₂, hs₂, h⟩ := h
    obtain ⟨rfl, -⟩ := Prod.mk.inj h
    rcases lsdbUpdateSelfOriginated_cases hs₂ with ⟨hf, hsame⟩ | ⟨hf, old, hold, hraise⟩
    · have hnot : ¬ Advances stack s₁ lsa := fun ha => by simp [ha.2] at hf
      rw [if_neg (hadv.not.2 hnot)]
      unfold AreaDs.Stores at hstores ⊢
      rw [hsame]
      exact hstores
    · rw [if_pos (hadv.2 ⟨hown, hf⟩)]
      obtain rfl : old = installed s.ospf now lsa (s.area.stored lsa.key) :=
        Option.some.inj (hold.symm.trans hstores.1)
      exact hstores.trans hraise
  · rename_i hown
    obtain ⟨rfl, -⟩ := Prod.mk.inj (Option.some.inj h)
    rw [if_neg fun ha => hown (hadv.1 ha).1]
    exact hstores

/-- An update of a type that the database has. -/
theorem lsdbUpdate_stores {src : Ip} {s s' : Router} {r : Bool} (htype : lsa.lsType.IsStored)
    (h : lsdbUpdate stack now inIf src s lsa = some (s', r)) :
    (Refused stack now s lsa ∧ s' = s) ∨
      (¬ Refused stack now s lsa ∧ s.area.Stores s'.area lsa (updated stack now s lsa)) := by
  obtain ⟨list, hlist⟩ := Option.isSome_iff_exists.1 ((isSome_list?_iff s.area).2 htype)
  unfold lsdbUpdate at h
  rw [hlist] at h
  simp only [Option.bind_eq_bind, Option.bind_eq_some_iff] at h
  obtain ⟨⟨ret, s₁⟩, hupd, hend⟩ := h
  have hrefused : (list.find? lsa.sameId).any (isWithinMinLSInterval stack now s.ospf lsa) = true ↔
      Refused stack now s lsa := by
    unfold Refused
    rw [stored_of_list hlist, Option.any_eq_true]
    simp only [Option.mem_def]
  unfold lsdbUpdateLSAList at hupd
  dsimp only at hupd
  split at hupd
  · cases hupd
  split at hupd
  · rename_i hwithin
    obtain ⟨rfl, rfl⟩ := Prod.mk.inj (Option.some.inj hupd)
    obtain ⟨rfl, -⟩ := Prod.mk.inj (Option.some.inj hend)
    exact Or.inl ⟨hrefused.1 hwithin, rfl⟩
  · rename_i hwithin
    simp only [Option.bind_eq_bind, Option.bind_eq_some_iff, Option.pure_def, Option.some.injEq] at hupd
    obtain ⟨⟨ospf', back⟩, hflood, hupd⟩ := hupd
    obtain ⟨rfl, rfl⟩ := Prod.mk.inj hupd
    have hframes := lsaFlood_frame hflood
    refine Or.inr ⟨fun hr => hwithin (hrefused.2 hr), ?_⟩
    have hstores := install_stores (s := { s with ospf := ospf' }) now hlist
    have hinst : installed ospf' now lsa (s.area.stored lsa.key) =
        installed s.ospf now lsa (s.area.stored lsa.key) := by
      obtain ⟨ifs, rfl⟩ := hframes.settings
      rfl
    rw [hinst] at hstores
    exact lsdbUpdateEnd_stores hframes hstores hend

end NetSim.Ospf
