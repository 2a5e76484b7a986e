import NetSim.Lib.Loop
import Mathlib.Logic.Function.Basic

/-!
# The records of the SMF

The part of `LTENR_SMF_UPF.c` that keeps the gNBs, the UEs and their bearers: the lookups, the
additions and the deletion, and the two messages that use them. A device with one of its interfaces
is a pair. The IP addresses, the packets that are sent and the back reference in the UE are left out.
An element that `list_remove` has taken out of a list may or may not keep its link to the element
behind it (`keepsNext`). A new element has no bearer.
-/

namespace NetSim.Smf

/-- `LTENR_Bearer_Context`, with the fields that are read. -/
structure BearerContext where
  epsBearerId : ℕ
deriving DecidableEq, Repr

/-- `LTENR_SMF_GNB_Info`. -/
structure GnbInfo where
  gnb : ℕ × ℕ
  smf : ℕ × ℕ
deriving DecidableEq, Repr

/-- `LTENR_SMF_UE_Info`. -/
structure UeInfo where
  ue : ℕ × ℕ
  gnb : ℕ × ℕ
  associateBearer : List BearerContext
deriving DecidableEq, Repr

/-- `LTENR_SMF_VAR`. -/
structure SmfVar where
  smf : ℕ × ℕ
  gnbList : List GnbInfo
  ueInfo : List UeInfo
deriving DecidableEq, Repr

/-- The lists that `LTENR_SMF_NAS_SM_GET` returns for the devices. -/
structure Store where
  smfNasSmGet : ℕ → List SmfVar

/-- The fields of `LTENR_CORE_HDR` that the SMF reads; `gnb` has the interface `gnbUuIF`. -/
structure CoreHdr where
  smf : ℕ × ℕ
  gnb : ℕ × ℕ
  ue : ℕ × ℕ
deriving DecidableEq, Repr

/-- The fields of `LTENR_HANDOVER_Hdr` that the SMF reads. -/
structure HandoverHdr where
  associateSmfId : ℕ
  serveringCell : ℕ × ℕ
  targetCell : ℕ × ℕ
  ue : ℕ × ℕ
deriving DecidableEq, Repr

/-! ## Lookups -/

/-- A round of `LTENR_GTP_C_FIND_SMF_VAR`: the loop does not go on to the next element. -/
def findRound (smf : ℕ × ℕ) : List SmfVar → List SmfVar ⊕ Option SmfVar
  | [] => .inr none
  | var :: rest => if var.smf = smf then .inr (some var) else .inl (var :: rest)

namespace Store

/-- `LTENR_GTP_C_FIND_SMF_VAR`. One round tells what any number of rounds does. There is no element if
the loop does not end, or ends with `NULL`, which the callers do not expect. -/
def findSmfVar (s : Store) (smf : ℕ × ℕ) : Option SmfVar :=
  (Loop.run (findRound smf) 1 (s.smfNasSmGet smf.1)).join

/-- The element that has been found is changed. -/
def setSmfVar (s : Store) (smf : ℕ × ℕ) (var : SmfVar) : Store :=
  ⟨Function.update s.smfNasSmGet smf.1 (var :: (s.smfNasSmGet smf.1).tail)⟩

/-- `LTENR_SMF_AddgNB`. -/
def addGnb (s : Store) (smf gnb : ℕ × ℕ) : Option Store := do
  let var ← s.findSmfVar smf
  return s.setSmfVar smf { var with gnbList := var.gnbList ++ [⟨gnb, smf⟩] }

/-- `LTENR_SMF_FINDgNB`. -/
def findGnb (s : Store) (smf gnb : ℕ × ℕ) : Option (Option GnbInfo) := do
  let var ← s.findSmfVar smf
  return var.gnbList.find? fun info => info.gnb = gnb

/-- `LTENR_SMF_AddUE`. -/
def addUe (s : Store) (smf gnb ue : ℕ × ℕ) : Option Store := do
  let var ← s.findSmfVar smf
  return s.setSmfVar smf { var with ueInfo := var.ueInfo ++ [⟨ue, gnb, []⟩] }

end Store

/-- The loop of `LTENR_SMF_DeleteUE`. -/
def removeUe (keepsNext : Bool) (ue : ℕ × ℕ) : List UeInfo → List UeInfo
  | [] => []
  | info :: rest =>
    if info.ue = ue then if keepsNext then removeUe keepsNext ue rest else rest
    else info :: removeUe keepsNext ue rest

/-- `LTENR_SMF_AddBearer`, on the element that `LTENR_SMF_FindUE` returns. -/
def setBearer (ue : ℕ × ℕ) (bearer : List BearerContext) : List UeInfo → List UeInfo
  | [] => []
  | info :: rest =>
    if info.ue = ue then { info with associateBearer := bearer } :: rest
    else info :: setBearer ue bearer rest

namespace Store

/-- `LTENR_SMF_DeleteUE`. -/
def deleteUe (keepsNext : Bool) (s : Store) (smf ue : ℕ × ℕ) : Option Store := do
  let var ← s.findSmfVar smf
  return s.setSmfVar smf { var with ueInfo := removeUe keepsNext ue var.ueInfo }

/-- `LTENR_SMF_FindUE`, and `LTENR_SMF_AddBearer` for what it returns. -/
def addBearer (s : Store) (smf ue : ℕ × ℕ) (bearer : List BearerContext) : Option Store := do
  let var ← s.findSmfVar smf
  return s.setSmfVar smf { var with ueInfo := setBearer ue bearer var.ueInfo }

/-! ## Messages -/

/-- `fn_NetSim_SMF_UPF_LTENR_CREATE_SESSION_REQUEST_RECV`. -/
def createSessionRequestRecv (s : Store) (hdr : CoreHdr) (bearer : List BearerContext) :
    Option Store := do
  let s ← s.addGnb hdr.smf hdr.gnb
  let s ← s.addUe hdr.smf hdr.gnb hdr.ue
  s.addBearer hdr.smf hdr.ue bearer

/-- `fn_NetSim_LTENR_AMF_MODIFY_BEARER_RESPONSE`; `coreInterface` is the N11 interface of a device. -/
def modifyBearerResponse (coreInterface : ℕ → ℕ) (keepsNext : Bool) (s : Store) (hdr : HandoverHdr) :
    Option Store := do
  let smf := (hdr.associateSmfId, coreInterface hdr.associateSmfId)
  let found ← s.findGnb smf hdr.targetCell
  let s ← (if found.isNone then s.addGnb smf hdr.targetCell else some s)
  let s ← s.deleteUe keepsNext smf hdr.ue
  s.addUe smf hdr.serveringCell hdr.ue

end Store

end NetSim.Smf
