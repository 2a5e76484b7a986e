import Mathlib.Data.Rat.Defs
import Mathlib.Algebra.Order.Ring.Rat
import Mathlib.Algebra.Order.Field.Rat
import Mathlib.Data.List.Basic

/-!
# Outer-loop link adaptation

One offset for each direction, carrier and layer of a UE. A transport block in error raises
the offset by `deltaUp`, a decoded one lowers it by `deltaDown`. Doubles are taken exactly.
-/

namespace NetSim.Olla

/-- `DELTAUP`, in dB. -/
def deltaUp : ℚ := 1 / 5

/-- `MAXDELTA`. -/
def maxDelta : ℚ := 0

/-- `MINDELTA`. -/
def minDelta : ℚ := -20

/-- `MAX_CA_COUNT`. -/
def maxCaCount : ℕ := 32

/-- `MAX_LAYER_COUNT`. -/
def maxLayerCount : ℕ := 16

/-- `OLLAHANDLER`. -/
structure OllaHandler where
  deltaOLLA : ℚ
  targetBLER : ℚ
  deltaDown : ℚ
  deltaUp : ℚ
deriving DecidableEq, Repr

/-- One of the two arrays of handlers, by carrier and by layer (`layerId - 1`). -/
abbrev HandlerArray := Fin maxCaCount → Fin maxLayerCount → OllaHandler

/-- `OLLACONTAINER`. -/
structure OllaContainer where
  uplinkHandler : HandlerArray
  downlinkHandler : HandlerArray

/-- A handler as `olla_handler_init` sets it up. -/
def OllaHandler.init (targetBLER : ℚ) : OllaHandler :=
  ⟨0, targetBLER, targetBLER / (1 - targetBLER) * Olla.deltaUp, Olla.deltaUp⟩

/-- `olla_handler_init`. -/
def ollaHandlerInit (targetBLER : ℚ) : OllaContainer :=
  ⟨fun _ _ => .init targetBLER, fun _ _ => .init targetBLER⟩

/-- `olla_handler_find`. -/
def OllaContainer.ollaHandlerFind (container : OllaContainer) (isUplink : Bool)
    (caId : Fin maxCaCount) (layer : Fin maxLayerCount) : OllaHandler :=
  if isUplink then container.uplinkHandler caId layer else container.downlinkHandler caId layer

def HandlerArray.set (handlers : HandlerArray) (caId : Fin maxCaCount) (layer : Fin maxLayerCount)
    (handler : OllaHandler) : HandlerArray :=
  fun c l => if c = caId ∧ l = layer then handler else handlers c l

/-- The container after a write through the pointer that `olla_handler_find` returns. -/
def OllaContainer.set (container : OllaContainer) (isUplink : Bool) (caId : Fin maxCaCount)
    (layer : Fin maxLayerCount) (handler : OllaHandler) : OllaContainer :=
  if isUplink then { container with uplinkHandler := container.uplinkHandler.set caId layer handler }
  else { container with downlinkHandler := container.downlinkHandler.set caId layer handler }

/-- The update of a handler in `LTENR_OLLA_MarkTBSError`. -/
def OllaHandler.markTbsError (handler : OllaHandler) : OllaHandler :=
  let delta := handler.deltaOLLA + handler.deltaUp
  { handler with deltaOLLA := if delta < minDelta then minDelta else delta }

/-- The update of a handler in `LTENR_OLLA_MarkTBSSuccess`. -/
def OllaHandler.markTbsSuccess (handler : OllaHandler) : OllaHandler :=
  let delta := handler.deltaOLLA - handler.deltaDown
  { handler with deltaOLLA := if delta > maxDelta then maxDelta else delta }

/-- `LTENR_OLLA_MarkTBSError`. -/
def OllaContainer.markTbsError (container : OllaContainer) (isUplink : Bool)
    (caId : Fin maxCaCount) (layer : Fin maxLayerCount) : OllaContainer :=
  container.set isUplink caId layer (container.ollaHandlerFind isUplink caId layer).markTbsError

/-- `LTENR_OLLA_MarkTBSSuccess`. -/
def OllaContainer.markTbsSuccess (container : OllaContainer) (isUplink : Bool)
    (caId : Fin maxCaCount) (layer : Fin maxLayerCount) : OllaContainer :=
  container.set isUplink caId layer (container.ollaHandlerFind isUplink caId layer).markTbsSuccess

/-- `LTENR_OLLA_GetDeltaSINR`. -/
def OllaContainer.getDeltaSinr (container : OllaContainer) (isOLLAEnable isUplink : Bool)
    (caId : Fin maxCaCount) (layer : Fin maxLayerCount) : ℚ :=
  if isOLLAEnable then (container.ollaHandlerFind isUplink caId layer).deltaOLLA else 0

/-- The handler that a report is for. -/
structure HandlerId where
  isUplink : Bool
  caId : Fin maxCaCount
  layer : Fin maxLayerCount
deriving DecidableEq, Repr

/-- A report of the HARQ. -/
structure Report where
  id : HandlerId
  isErrored : Bool
deriving DecidableEq, Repr

/-- A report of the HARQ, as `ReportToOLLA` makes it. -/
def OllaContainer.report (container : OllaContainer) (r : Report) : OllaContainer :=
  if r.isErrored then container.markTbsError r.id.isUplink r.id.caId r.id.layer
  else container.markTbsSuccess r.id.isUplink r.id.caId r.id.layer

def OllaContainer.find (container : OllaContainer) (id : HandlerId) : OllaHandler :=
  container.ollaHandlerFind id.isUplink id.caId id.layer

@[simp]
theorem OllaContainer.find_init (targetBLER : ℚ) (id : HandlerId) :
    (ollaHandlerInit targetBLER).find id = .init targetBLER := by
  simp [find, ollaHandlerFind, ollaHandlerInit]

@[simp]
theorem OllaContainer.find_set (container : OllaContainer) (id : HandlerId) (handler : OllaHandler) :
    (container.set id.isUplink id.caId id.layer handler).find id = handler := by
  cases h : id.isUplink <;> simp [find, ollaHandlerFind, set, HandlerArray.set, h]

theorem OllaContainer.find_set_ne (container : OllaContainer) {id id' : HandlerId} (hne : id' ≠ id)
    (handler : OllaHandler) :
    (container.set id.isUplink id.caId id.layer handler).find id' = container.find id' := by
  obtain ⟨up, ca, layer⟩ := id
  obtain ⟨up', ca', layer'⟩ := id'
  -- the other array, or another place of the same array
  cases up <;> cases up' <;>
    simp_all [find, ollaHandlerFind, set, HandlerArray.set]

end NetSim.Olla
