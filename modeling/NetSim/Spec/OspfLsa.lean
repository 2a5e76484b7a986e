import NetSim.Spec.Ospf

/-!
# Link state advertisements: age, recency and content

The functions of `OSPF_LSA.c` and `OSPF_RLSA.c` that read one advertisement or compare two.
-/

namespace NetSim.Ospf

/-- The functions of the network stack, and those of the OSPF library, whose code is not part of the
repository, for one device: `ospf_isMyAddr`, `fn_NetSim_Stack_GetInterfaceIdFromIP`,
`ospf_getInterfaceIdForNextHop` (0 if there is no such interface) and `IP_IS_IN_SAME_NETWORK_IPV4`. -/
structure Stack where
  isMyAddr : Ip → Bool
  getInterfaceIdFromIP : Ip → ℕ
  getInterfaceIdForNextHop : Ip → ℕ
  isInSameNetwork : Ip → Ip → Ip → Bool

/-! ## Sequence number and age -/

/-- `OSPF_INITIAL_SEQUENCE_NUMBER`. -/
def initialSequenceNumber : UInt32 := 0x80000001

/-- `OSPF_MAX_SEQUENCE_NUMBER`. -/
def maxSequenceNumber : UInt32 := 0x7fffffff

/-- `OSPF_DO_NOT_AGE`. -/
def doNotAge : UInt16 := 0x8000

/-- `ospf_lsa_checkForDoNotAge`. -/
def checkForDoNotAge (ospf : Pds) (routerLSAAge : UInt16) : Bool :=
  if ospf.supportDC then routerLSAAge &&& doNotAge != 0 else false

/-- `ospf_lsa_maskDoNotAge`. -/
def maskDoNotAge (ospf : Pds) (routerLSAAge : UInt16) : UInt16 :=
  if checkForDoNotAge ospf routerLSAAge then routerLSAAge &&& ~~~doNotAge else routerLSAAge

/-- `ospf_lsa_assignNewLSAge`: the value it stores. -/
def assignNewLSAge (ospf : Pds) (routerLSAAge newLSAAge : UInt16) : UInt16 :=
  if checkForDoNotAge ospf routerLSAAge then doNotAge ||| newLSAAge else newLSAAge

/-- `ospf_lsa_hasMaxAge`. -/
def hasMaxAge (ospf : Pds) (lsa : LsaHdr) : Bool := maskDoNotAge ospf lsa.lsAge == ospf.lsaMaxAge

/-- `ospf_lsa_DiffOfAge`: a difference that is cast to 16 bits. -/
def diffOfAge (ospf : Pds) (a1 a2 : UInt16) : ℤ :=
  Int.bmod ((maskDoNotAge ospf a1).toNat - (maskDoNotAge ospf a2).toNat) 65536

/-- `OSPF_LSA_MAX_AGE_DIFF / SECOND`. -/
def maxAgeDiff : ℕ := 900

/-! ## Recency -/

/-- `ospf_lsa_compare`: 1 if the new one is more recent, -1 if the old one is. -/
def lsaCompare (ospf : Pds) (oldLS newLS : LsaHdr) : ℤ :=
  if newLS.lsSequenceNumber > oldLS.lsSequenceNumber then 1
  else if oldLS.lsSequenceNumber > newLS.lsSequenceNumber then -1
  else if maskDoNotAge ospf newLS.lsAge ≥ ospf.lsaMaxAge ∧
      maskDoNotAge ospf oldLS.lsAge < ospf.lsaMaxAge then 1
  else if maskDoNotAge ospf oldLS.lsAge ≥ ospf.lsaMaxAge ∧
      maskDoNotAge ospf newLS.lsAge < ospf.lsaMaxAge then -1
  else if (diffOfAge ospf newLS.lsAge oldLS.lsAge).natAbs > maxAgeDiff ∧
      maskDoNotAge ospf newLS.lsAge < maskDoNotAge ospf oldLS.lsAge then 1
  else if (diffOfAge ospf newLS.lsAge oldLS.lsAge).natAbs > maxAgeDiff ∧
      maskDoNotAge ospf newLS.lsAge > maskDoNotAge ospf oldLS.lsAge then -1
  else 0

/-- `ospf_lsa_compareToListMem`. -/
def compareToListMem (ospf : Pds) (oldLS newLS : LsaHdr) : Bool :=
  oldLS.sameKey newLS && lsaCompare ospf oldLS newLS == 0

/-- `ospf_lsa_isMoreRecent`. The new one is never `NULL`. -/
def isMoreRecent (ospf : Pds) (newLSA : LsaHdr) : Option LsaHdr → ℤ
  | none => 1
  | some oldLSA => lsaCompare ospf oldLSA newLSA

/-- `ospf_lsa_isSelfOriginated`. -/
def isSelfOriginated (ospf : Pds) (stack : Stack) (lsa : LsaHdr) : Bool :=
  lsa.advertisingRouter.same ospf.routerId ||
    (stack.isMyAddr lsa.linkStateId && lsa.lsType == .networkLsa)

/-! ## Content -/

/-- The comparison of two links inside `ospf_rlsa_isBodyChanged`: the link ids as pointers. -/
def RlsaLink.matches (newLink oldLink : RlsaLink) : Bool :=
  newLink.linkId.ptr == oldLink.linkId.ptr && newLink.type == oldLink.type &&
    newLink.linkData.same oldLink.linkData && newLink.metric == oldLink.metric

/-- The old links that `sameLinkInfo` does not mark: each new link marks the first unmarked old link
that it matches. -/
def unmatchedLinks (newLink oldLink : List RlsaLink) : List RlsaLink :=
  newLink.foldl (fun left link => left.eraseP link.matches) oldLink

/-- `ospf_rlsa_isBodyChanged`. -/
def rlsaIsBodyChanged (newLSA oldLSA : Rlsa) : Bool :=
  if newLSA.rlsaLink.length != oldLSA.rlsaLink.length || newLSA.veb != oldLSA.veb then true
  else !(unmatchedLinks newLSA.rlsaLink oldLSA.rlsaLink).isEmpty

/-- `ospf_lsa_isBodyChanged`; only router LSAs are implemented. -/
def lsaIsBodyChanged (newLSA oldLSA : LsaHdr) : Bool :=
  match newLSA.lsType with
  | .routerLsa => rlsaIsBodyChanged newLSA.lsaInfo oldLSA.lsaInfo
  | _ => false

/-- `ospf_lsa_is_content_changed`. -/
def isContentChanged (ospf : Pds) (newLSA oldLSA : LsaHdr) : Bool :=
  newLSA.options != oldLSA.options ||
    (hasMaxAge ospf newLSA && !hasMaxAge ospf oldLSA ||
      !hasMaxAge ospf newLSA && hasMaxAge ospf oldLSA) ||
    newLSA.length != oldLSA.length || lsaIsBodyChanged newLSA oldLSA

/-- `ospf_rlsa_hasLink`: `wlsa` has a link back to `vlsa`. -/
def rlsaHasLink (wlsa vlsa : LsaHdr) : Bool :=
  wlsa.lsaInfo.rlsaLink.any fun link =>
    match link.type with
    | .pointToPoint => vlsa.lsType == .routerLsa && link.linkId.same vlsa.advertisingRouter
    | .transit => vlsa.lsType == .networkLsa && link.linkId.same vlsa.linkStateId
    | _ => false

/-! ## Lookups -/

/-- `ospf_lsdb_lookup_lsaList`. -/
def lookupLsaList (list : List LsaHdr) (adverRouter linkStateId : Ip) : Option LsaHdr :=
  list.find? fun lsa => lsa.advertisingRouter.same adverRouter && lsa.linkStateId.same linkStateId

/-- `ospf_lsdb_lookup_lsaListByID`. -/
def lookupLsaListById (list : List LsaHdr) (linkStateId : Ip) : Option LsaHdr :=
  list.find? fun lsa => lsa.linkStateId.same linkStateId

/-- `ospf_lsdb_lookup`: the list of the area that holds a type, `none` for the types without one. -/
def AreaDs.list? (area : AreaDs) : LsType → Option (List LsaHdr)
  | .routerLsa => some area.routerLSAList
  | .networkLsa => some area.nwLSAList
  | .summaryLsaRouter => some area.routerSummaryLSAList
  | .summaryLsaNetwork => some area.nwSummaryLSAList
  | _ => none

/-- `ospf_lsdb_lookup`. -/
def lsdbLookup (area : AreaDs) (lsType : LsType) (adveRouter linkStateId : Ip) : Option LsaHdr :=
  (area.list? lsType).bind fun list => lookupLsaList list adveRouter linkStateId

/-- `ospf_lsa_find_old_lsa`. -/
def findOldLsa (list : List LsaHdr) (rid lid : Ip) : Option LsaHdr := lookupLsaList list rid lid

end NetSim.Ospf
