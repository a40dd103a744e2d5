import UIoT.Library.Custody
import UIoT.Mqtt.AckMatching
import UIoT.Mqtt.PacketIds
import UIoT.Mqtt.RequestOutcomes

/-!
# Ownership of topic filters

A request stores its filter on the heap.  The filter belongs to the node that
waits, then to the slot that its handler is put into, until it is freed.  As
long as acknowledgements are for requests that wait, no filter is freed twice,
and none that a slot or a waiting node holds has been freed.
-/

namespace UIoT
namespace Mqtt

open Custody (Safe Moves)

/-! ## Who holds a filter -/

/-- The address of the filter of a handler. -/
def SubTopicHandle.filterAddress (handle : SubTopicHandle) : Option Nat :=
  handle.topicFilter.map StoredString.address

/-- The filters that some slots hold. -/
def slotFilters (subHandles : Fin maxSubTopics → SubTopicHandle)
    (slots : List (Fin maxSubTopics)) : List Nat :=
  slots.filterMap fun i => (subHandles i).filterAddress

/-- The filter that a node holds: its own while it waits, none afterwards. -/
def UIoTSubInfo.heldFilter (info : UIoTSubInfo) : List Nat :=
  if info.nodeState = .normal then info.handler.filterAddress.toList else []

/-- The filters that the waiting nodes of a list hold. -/
def nodeFilters (infos : List UIoTSubInfo) : List Nat :=
  infos.flatMap UIoTSubInfo.heldFilter

/-- The filters that are held and those that have been freed. -/
def Books.custody (b : Books) : Custody.State where
  held := slotFilters b.subHandles (List.finRange maxSubTopics) ++
    nodeFilters b.listSubWaitAck
  freed := b.freed
  top := b.heapTop

/-- Addresses of held filters are distinct, and neither they nor each other's
have been freed. -/
def Books.FiltersOwned (b : Books) : Prop := Safe b.custody

/-! ## Slots -/

/-- Emptying slots frees what they held. -/
theorem slotFilters_cleared (topicFilter : CString)
    (subHandles : Fin maxSubTopics → SubTopicHandle)
    (slots : List (Fin maxSubTopics)) :
    (slotFilters (clearedHandles topicFilter subHandles) slots ++
        clearedFilters topicFilter subHandles slots).Perm
      (slotFilters subHandles slots) := by
  induction slots with
  | nil => exact .refl _
  | cons i slots inductionHypothesis =>
      unfold slotFilters clearedFilters at inductionHypothesis ⊢
      rw [List.filterMap_cons, List.filterMap_cons, List.filter_cons]
      unfold clearedHandles
      by_cases clears : clearsSlot topicFilter (subHandles i) = true
      · rw [if_pos clears, if_pos clears, List.flatMap_cons]
        unfold SubTopicHandle.filterAddress at inductionHypothesis ⊢
        cases held : (subHandles i).topicFilter with
        | none => exact inductionHypothesis
        | some stored =>
            refine List.perm_middle.trans ?_
            exact inductionHypothesis.cons stored.address
      · rw [if_neg clears, if_neg clears]
        unfold SubTopicHandle.filterAddress at inductionHypothesis ⊢
        cases held : (subHandles i).topicFilter with
        | none => exact inductionHypothesis
        | some stored => exact inductionHypothesis.cons stored.address

/-- A free slot that is filled holds the filter in addition. -/
theorem slotFilters_update {subHandles : Fin maxSubTopics → SubTopicHandle}
    {i : Fin maxSubTopics} (unoccupied : (subHandles i).topicFilter = none)
    (handle : SubTopicHandle) :
    (slotFilters (Function.update subHandles i handle)
        (List.finRange maxSubTopics)).Perm
      (handle.filterAddress.toList ++
        slotFilters subHandles (List.finRange maxSubTopics)) := by
  obtain ⟨front, back, slots⟩ := List.append_of_mem (List.mem_finRange i)
  have nodup := List.nodup_finRange maxSubTopics
  rw [slots] at nodup ⊢
  obtain ⟨-, backNodup, apart⟩ := List.nodup_append.mp nodup
  have others {part : List (Fin maxSubTopics)} (absent : i ∉ part) :
      slotFilters (Function.update subHandles i handle) part =
        slotFilters subHandles part := by
    apply List.filterMap_congr
    intro j mem
    rw [Function.update_of_ne]
    rintro rfl
    exact absent mem
  have inFront : i ∉ front := fun mem =>
    apart i mem i List.mem_cons_self rfl
  have inBack : i ∉ back := (List.nodup_cons.mp backNodup).1
  have empty : (subHandles i).filterAddress = none := by
    rw [SubTopicHandle.filterAddress, unoccupied]
    rfl
  have split (handles : Fin maxSubTopics → SubTopicHandle) :
      slotFilters handles (front ++ i :: back) =
        slotFilters handles front ++ ((handles i).filterAddress.toList ++
          slotFilters handles back) := by
    unfold slotFilters
    rw [List.filterMap_append, List.filterMap_cons]
    cases (handles i).filterAddress <;> rfl
  rw [split, split, others inFront, others inBack, Function.update_self, empty]
  exact List.perm_append_comm_assoc ..

/-! ## Nodes -/

theorem nodeFilters_append (first second : List UIoTSubInfo) :
    nodeFilters (first ++ second) = nodeFilters first ++ nodeFilters second :=
  List.flatMap_append

theorem nodeFilters_cons (info : UIoTSubInfo) (infos : List UIoTSubInfo) :
    nodeFilters (info :: infos) = info.heldFilter ++ nodeFilters infos :=
  List.flatMap_cons

/-- A marked node holds nothing. -/
theorem UIoTSubInfo.heldFilter_mask (packetId : UInt16) (info : UIoTSubInfo) :
    (info.mask packetId).heldFilter =
      if info.msgId = packetId then [] else info.heldFilter := by
  unfold heldFilter
  simp only [nodeState_mask_iff, handler_mask]
  by_cases carries : info.msgId = packetId
  · simp [carries]
  · simp [carries]

/-- Marking makes no node hold a filter. -/
theorem nodeFilters_mask_sublist (packetId : UInt16)
    (infos : List UIoTSubInfo) :
    (nodeFilters (infos.map (UIoTSubInfo.mask packetId))).Sublist
      (nodeFilters infos) := by
  induction infos with
  | nil => exact .refl _
  | cons info infos inductionHypothesis =>
      rw [List.map_cons, nodeFilters_cons, nodeFilters_cons,
        UIoTSubInfo.heldFilter_mask]
      split
      · exact inductionHypothesis.trans (List.sublist_append_right ..)
      · exact inductionHypothesis.append_left _

/-- Marking the nodes with the identifier of a waiting one sets its filter
free. -/
theorem nodeFilters_mask {infos : List UIoTSubInfo} {packetId : UInt16}
    {info : UIoTSubInfo} (listed : info ∈ infos)
    (carries : info.msgId = packetId) (normal : info.nodeState = .normal) :
    (info.handler.filterAddress.toList ++
        nodeFilters (infos.map (UIoTSubInfo.mask packetId))).Subperm
      (nodeFilters infos) := by
  obtain ⟨front, back, rfl⟩ := List.append_of_mem listed
  have marked : (info.mask packetId).heldFilter = [] := by
    rw [UIoTSubInfo.heldFilter_mask, if_pos carries]
  have waiting : info.heldFilter = info.handler.filterAddress.toList :=
    if_pos normal
  rw [List.map_append, List.map_cons, nodeFilters_append, nodeFilters_cons,
    nodeFilters_append, nodeFilters_cons, marked, waiting, List.nil_append]
  refine (List.perm_append_comm_assoc ..).subperm.trans ?_
  exact ((nodeFilters_mask_sublist packetId front).append
    ((nodeFilters_mask_sublist packetId back).append_left _)).subperm

/-- A sweep keeps the filters of the nodes that stay and frees those of the
nodes that have expired. -/
theorem nodeFilters_swept (c : Client) (infos : List UIoTSubInfo) :
    (nodeFilters (infos.filter (subWaitAck.stays c)) ++
        (infos.filter (subWaitAck.expires c)).flatMap
          fun info => info.handler.filterAddress.toList).Perm
      (nodeFilters infos) := by
  induction infos with
  | nil => exact .refl _
  | cons info infos inductionHypothesis =>
      have normal_of_expires : subWaitAck.expires c info = true →
          info.nodeState = .normal := by
        intro expires
        simp only [WaitingList.expires, Bool.and_eq_true] at expires
        exact of_decide_eq_true expires.1.1
      have stays_eq : subWaitAck.stays c info =
          (decide (info.nodeState = .normal) &&
            !subWaitAck.expires c info) := rfl
      rw [List.filter_cons, List.filter_cons, nodeFilters_cons, stays_eq,
        UIoTSubInfo.heldFilter]
      cases expires : subWaitAck.expires c info with
      | true =>
          rw [normal_of_expires expires]
          exact (List.perm_append_comm_assoc ..).trans
            (inductionHypothesis.append_left _)
      | false =>
          cases state : info.nodeState with
          | normal =>
              rw [if_pos (by rfl), if_neg (by simp), if_pos rfl,
                nodeFilters_cons, UIoTSubInfo.heldFilter, if_pos state,
                List.append_assoc]
              exact inductionHypothesis.append_left _
          | invalid => exact inductionHypothesis

/-! ## Acknowledgements -/

namespace Books

/-- What is held or freed. -/
def filters (b : Books) : List Nat := b.custody.held ++ b.custody.freed

/-- A step that allocates nothing keeps filters owned if none comes up in a
second place. -/
theorem FiltersOwned.of_subperm {b after : Books} (owned : b.FiltersOwned)
    (top : b.heapTop ≤ after.heapTop)
    (filters : after.filters.Subperm b.filters) : after.FiltersOwned :=
  Safe.moves owned (Moves.of_subperm top filters)

/-- What has been freed may as well be thought of as held. -/
theorem filters_of_freed {b after : Books} (more : List Nat)
    (held : after.custody.held = b.custody.held)
    (freed : after.freed = b.freed ++ more) :
    after.filters.Perm (more ++ b.filters) := by
  have freed : after.custody.freed = b.custody.freed ++ more := freed
  rw [filters, held, freed, ← List.append_assoc]
  exact List.perm_append_comm

/-- An installation puts the filter of a handler into one place at most. -/
theorem Installs.filters {b after : Books} {packetId : UInt16}
    {subHandle : SubTopicHandle} {nack : Bool}
    (installs : b.Installs packetId subHandle nack after) :
    after.filters.Subperm (subHandle.filterAddress.toList ++ b.filters) := by
  cases installs with
  | missing filter => exact (List.sublist_append_right ..).subperm
  | refused filter =>
      refine List.Perm.subperm ?_
      exact filters_of_freed subHandle.filterAddress.toList rfl rfl
  | known filter identical =>
      refine List.Perm.subperm ?_
      exact filters_of_freed subHandle.filterAddress.toList rfl rfl
  | full filter different occupied =>
      exact (List.sublist_append_right ..).subperm
  | @added i filter different unoccupied =>
      have filled := slotFilters_update unoccupied subHandle
      have held := filled.append_right (nodeFilters b.listSubWaitAck)
      have all := (held.append_right b.freed).subperm
      rw [List.append_assoc subHandle.filterAddress.toList,
        List.append_assoc subHandle.filterAddress.toList] at all
      exact all

/-- Marking nodes and handing the handler of one of them on. -/
theorem filters_maskSub {b : Books} {packetId : UInt16} {info : UIoTSubInfo}
    (listed : info ∈ b.listSubWaitAck) (carries : info.msgId = packetId)
    (waits : b.CarriersWait packetId) :
    (info.handler.filterAddress.toList ++
        (b.maskSub packetId true).filters).Subperm b.filters := by
  have nodes := nodeFilters_mask listed carries (waits info listed carries)
  unfold filters custody
  dsimp only [maskSub, if_true]
  rw [← List.append_assoc]
  refine List.Subperm.append ?_ (.refl _)
  refine (List.perm_append_comm_assoc ..).subperm.trans ?_
  exact (List.Subperm.refl _).append nodes

/-- A SUBACK whose carriers wait. -/
theorem FiltersOwned.suback {b : Books} (owned : b.FiltersOwned)
    (packet : SubackPacket) (iteratorAllocated : Bool)
    (waits : iteratorAllocated = true → b.CarriersWait packet.packetId) :
    (b.suback packet iteratorAllocated).FiltersOwned := by
  refine owned.of_subperm (b.suback_frame packet iteratorAllocated).2.ge ?_
  rcases b.suback_cases packet iteratorAllocated with
    same | ⟨allocated, info, listed, carries, installs⟩
  · rw [same]
  · exact installs.filters.trans
      (filters_maskSub listed carries (waits allocated))

/-- Marking frees nothing. -/
theorem filters_maskSub_subperm (b : Books) (packetId : UInt16) :
    (b.maskSub packetId true).filters.Subperm b.filters := by
  have nodes := nodeFilters_mask_sublist packetId b.listSubWaitAck
  exact ((nodes.append_left _).append_right _).subperm

/-- An UNSUBACK whose carriers wait, and which finds one or leaves the handle
without a filter. -/
theorem FiltersOwned.unsuback {b : Books} (owned : b.FiltersOwned)
    (packetId : UInt16) (staleHandle : SubTopicHandle)
    (iteratorAllocated : Bool)
    (waits : iteratorAllocated = true → b.CarriersWait packetId)
    (found : staleHandle.topicFilter = none ∨
      iteratorAllocated = true ∧ ¬b.NoCarrier packetId) :
    (b.unsuback packetId staleHandle iteratorAllocated).FiltersOwned := by
  refine owned.of_subperm
    (b.unsuback_frame packetId staleHandle iteratorAllocated).2.1.ge ?_
  have freed : (b.unsuback packetId staleHandle iteratorAllocated).filters.Perm
      (((b.maskedHandler packetId staleHandle iteratorAllocated).topicFilter.map
        StoredString.address).toList ++
          (b.maskSub packetId iteratorAllocated).filters) :=
    filters_of_freed _ rfl rfl
  refine freed.subperm.trans ?_
  cases iteratorAllocated with
  | false =>
      rcases found with none | ⟨allocated, -⟩
      · rw [show b.maskedHandler packetId staleHandle false = staleHandle
          from rfl, none]
        exact .refl _
      · exact absurd allocated (by decide)
  | true =>
      rcases b.maskedHandler_cases packetId staleHandle true with
        ⟨nothing, initial⟩ | ⟨info, listed, carries, handler⟩
      · have empty := nothing.resolve_left (by decide)
        rcases found with none | ⟨-, carrier⟩
        · rw [initial, none]
          exact filters_maskSub_subperm b packetId
        · exact absurd (carriers_eq_nil_iff.mp empty) carrier
      · rw [handler]
        exact filters_maskSub listed carries (waits rfl)

end Books

/-! ## Sweeps -/

/-- A sweep frees the filters of the requests that it gives up. -/
theorem Books.FiltersOwned.sweepSub {b : Books} (owned : b.FiltersOwned)
    (c : Client) :
    (b.sweepSub (subWaitAck.stays c) (subWaitAck.expires c)).FiltersOwned := by
  refine owned.of_subperm (Nat.le_refl b.heapTop) ?_
  let slots := slotFilters b.subHandles (List.finRange maxSubTopics)
  let stay := nodeFilters (b.listSubWaitAck.filter (subWaitAck.stays c))
  let expired := b.listSubWaitAck.filter (subWaitAck.expires c)
  let freed : UIoTSubInfo → List Nat := fun info =>
    info.handler.filterAddress.toList
  have walked : (b.listSubWaitAck.reverse.filter
      (subWaitAck.expires c)).flatMap freed = expired.reverse.flatMap freed :=
    congrArg (List.flatMap freed) List.filter_reverse
  have swept : (stay ++ expired.flatMap freed).Perm
      (nodeFilters b.listSubWaitAck) := nodeFilters_swept c b.listSubWaitAck
  have order : (expired.reverse.flatMap freed).Perm (expired.flatMap freed) :=
    (List.reverse_perm expired).flatMap_right freed
  change (slots ++ stay ++ (b.freed ++ List.flatMap freed _)).Subperm _
  rw [walked]
  have all : (slots ++ stay ++ (b.freed ++ expired.reverse.flatMap freed)).Perm
      (slots ++ (stay ++ expired.flatMap freed) ++ b.freed) := by
    rw [List.append_assoc, List.append_assoc slots, List.append_assoc stay]
    refine List.Perm.append_left _ (List.Perm.append_left _ ?_)
    exact List.perm_append_comm.trans (order.append_right _)
  exact (all.trans ((swept.append_left slots).append_right b.freed)).subperm

/-! ## Requests -/

/-- A serialised request that fails frees the filter of its handler. -/
theorem requestSerialized_freed (c : Client) (len : Nat) (packetId : UInt16)
    (type : MessageTypes) (handler : SubTopicHandle) (env : RequestEnv) :
    let after := (requestSerialized c len packetId type handler env).1
    c.heapTop ≤ after.heapTop ∧
      (after.freed = c.freed ∨
        after.freed = c.freed ++ handler.filterAddress.toList) := by
  intro after
  rcases pushSubInfoTo_cases c packetId type handler env with
    ⟨-, pushed⟩ | ⟨-, ret, refused⟩
  · rcases sendMqttPacket_cases
        { c with
          listSubWaitAck :=
            c.listSubWaitAck ++ [c.subInfo packetId type handler]
          heapTop := c.heapTop + 1 } len env.writes with
      ⟨-, sent, send, books⟩ | ⟨-, sent, ret, send, error, books⟩
    · have after_eq : after = sent.unlock .writeBuf := by
        simp only [after, requestSerialized, pushed, send]
      have grows : sent.heapTop = c.heapTop + 1 :=
        congrArg Books.heapTop books
      rw [after_eq]
      exact ⟨grows.ge.trans' (Nat.le_succ _),
        .inl (congrArg Books.freed books)⟩
    · have after_eq : after =
          ((removeSubInfo sent c.heapTop).unlock .writeBuf).free
            handler.topicFilter := by
        simp only [after, requestSerialized, pushed, send]
      have grows : sent.heapTop = c.heapTop + 1 :=
        congrArg Books.heapTop books
      have kept : sent.freed = c.freed := congrArg Books.freed books
      rw [after_eq, ← kept]
      exact ⟨grows.ge.trans' (Nat.le_succ _), .inr rfl⟩
  · have after_eq : after =
        (c.unlock .writeBuf).free handler.topicFilter := by
      simp only [after, requestSerialized, refused]
    rw [after_eq]
    exact ⟨Nat.le_refl _, .inr rfl⟩

/-- A request frees nothing but the filter it has stored. -/
theorem requestStored_freed (c : Client) (topicFilter : CString)
    (type : MessageTypes)
    (serialize : Memory → UInt16 → CString → Except IoTError (Memory × Nat))
    {handler : StoredString → SubTopicHandle}
    (holds : ∀ stored, (handler stored).topicFilter = some stored)
    (env : RequestEnv) :
    let after := (requestStored c topicFilter type serialize handler env).1
    after.freed = c.freed ∨
      after.freed = c.freed ++ [c.heapTop] ∧ c.heapTop < after.heapTop := by
  intro after
  cases stored : env.storedAllocated with
  | false =>
      have after_eq : after = c := by
        simp only [after, requestStored, stored, Bool.not_false, if_true]
      exact .inl (congrArg Client.freed after_eq)
  | true =>
      let prepared : Client :=
        getNextPacketId ((storeFilter c topicFilter).1.lock .writeBuf)
      cases serialized : serialize c.writeBuf (nextId c.nextPacketId)
          topicFilter with
      | error ret =>
          have after_eq : after =
              (prepared.unlock .writeBuf).free
                (some ⟨c.heapTop, topicFilter⟩) := by
            simp only [after, prepared, requestStored, stored, storeFilter,
              getNextPacketId, Client.lock, serialized, Bool.not_true,
              Bool.false_eq_true, if_false]
          rw [after_eq]
          exact .inr ⟨rfl, Nat.lt_succ_self _⟩
      | ok packet =>
          have after_eq : after =
              (requestSerialized { prepared with writeBuf := packet.1 }
                packet.2 (nextId c.nextPacketId) type
                (handler ⟨c.heapTop, topicFilter⟩) env).1 := by
            simp only [after, prepared, requestStored, stored, storeFilter,
              getNextPacketId, Client.lock, serialized, Bool.not_true,
              Bool.false_eq_true, if_false]
          obtain ⟨grows, freed⟩ := requestSerialized_freed
            { prepared with writeBuf := packet.1 } packet.2
            (nextId c.nextPacketId) type (handler ⟨c.heapTop, topicFilter⟩) env
          have own : (handler ⟨c.heapTop, topicFilter⟩).filterAddress.toList =
              [c.heapTop] := by
            rw [SubTopicHandle.filterAddress, holds]
            rfl
          rw [own] at freed
          rw [after_eq]
          exact freed.imp id fun freed => ⟨freed, grows⟩

/-- A request with a filter keeps filters owned. -/
theorem requestStored_filtersOwned {c : Client} (ordered : c.books.HeapOrdered)
    (owned : c.books.FiltersOwned) (topicFilter : CString) (type : MessageTypes)
    (serialize : Memory → UInt16 → CString → Except IoTError (Memory × Nat))
    {handler : StoredString → SubTopicHandle}
    (holds : ∀ stored, (handler stored).topicFilter = some stored)
    (env : RequestEnv) :
    (requestStored c topicFilter type serialize
      handler env).1.books.FiltersOwned := by
  have freed := requestStored_freed c topicFilter type serialize holds env
  rcases requestStored_cases c topicFilter type serialize handler env with
    ⟨-, books, -⟩ | ⟨-, ⟨_, infos, heapTop, _, grows, -, removed, books⟩, -⟩
  · have filter : (c.requestInfo topicFilter type handler).heldFilter =
        [c.heapTop] := by
      have waits : (c.requestInfo topicFilter type handler).nodeState =
          .normal := rfl
      rw [UIoTSubInfo.heldFilter, if_pos waits]
      change (Option.map _ (handler _).topicFilter).toList = _
      rw [holds]
      rfl
    have nodes : nodeFilters (c.listSubWaitAck ++
        [c.requestInfo topicFilter type handler]) =
          nodeFilters c.listSubWaitAck ++ [c.heapTop] := by
      rw [nodeFilters_append, nodeFilters_cons, filter]
      rfl
    rw [books]
    refine Safe.moves owned (Moves.of_fresh
      ⟨Nat.le_refl c.heapTop, Nat.lt_add_of_pos_right Nat.two_pos⟩ ?_)
    unfold Books.custody
    dsimp only
    rw [nodes, ← List.append_assoc, List.append_assoc _ [c.heapTop]]
    exact List.perm_middle.subperm
  · have sameHeld : (requestStored c topicFilter type serialize
        handler env).1.books.custody.held = c.books.custody.held := by
      rw [books, removed ordered]
      rfl
    have grows : c.heapTop ≤ (requestStored c topicFilter type serialize
        handler env).1.heapTop := grows.trans (congrArg Books.heapTop books).ge
    rcases freed with same | ⟨freed, above⟩
    · refine owned.of_subperm grows ?_
      unfold Books.filters
      rw [sameHeld]
      exact List.Perm.subperm (.of_eq (congrArg _ same))
    · refine Safe.moves owned (Moves.of_fresh
        ⟨Nat.le_refl c.heapTop, above⟩ ?_)
      exact (Books.filters_of_freed [c.heapTop] sameHeld freed).subperm

/-- Emptying slots keeps filters owned. -/
theorem Client.cleared_filtersOwned {c : Client}
    (owned : c.books.FiltersOwned) (topicFilter : CString) :
    (c.cleared topicFilter).books.FiltersOwned := by
  refine owned.of_subperm (Nat.le_refl c.heapTop) ?_
  let kept := slotFilters (clearedHandles topicFilter c.subHandles)
    (List.finRange maxSubTopics)
  let freed := clearedFilters topicFilter c.subHandles
    (List.finRange maxSubTopics)
  let nodes := nodeFilters c.listSubWaitAck
  have slots : (kept ++ freed).Perm
      (slotFilters c.subHandles (List.finRange maxSubTopics)) :=
    slotFilters_cleared topicFilter c.subHandles (List.finRange maxSubTopics)
  have all : (kept ++ nodes ++ (c.freed ++ freed)).Perm
      (kept ++ freed ++ nodes ++ c.freed) := by
    rw [List.append_assoc, List.append_assoc kept, List.append_assoc kept,
      List.append_assoc freed]
    refine List.Perm.append_left _ ?_
    rw [← List.append_assoc]
    exact List.perm_append_comm
  exact (all.trans ((slots.append_right nodes).append_right c.freed)).subperm

/-- Neither kind of request makes two places hold a filter. -/
theorem uiotMqttSubscribe_filtersOwned {c : Client}
    (ordered : c.books.HeapOrdered) (owned : c.books.FiltersOwned)
    (topicFilter : CString) (params : SubscribeParams) (env : RequestEnv) :
    (uiotMqttSubscribe c topicFilter params env).1.books.FiltersOwned := by
  rcases requestChecked_cases c topicFilter params.qos
      (subscribeChecked c topicFilter params env) with
    ⟨-, subscribe⟩ | ⟨-, ret, refused⟩
  · rw [show uiotMqttSubscribe c topicFilter params env = _ from subscribe]
    exact requestStored_filtersOwned ordered owned topicFilter .subscribe _
      (fun _ => rfl) env
  · rw [show uiotMqttSubscribe c topicFilter params env = _ from refused]
    exact owned

theorem uiotMqttUnsubscribe_filtersOwned {c : Client}
    (ordered : c.books.HeapOrdered) (owned : c.books.FiltersOwned)
    (topicFilter : CString) (env : RequestEnv) :
    (uiotMqttUnsubscribe c topicFilter env).1.books.FiltersOwned := by
  have cleared := c.cleared_filtersOwned owned topicFilter
  have clearedOrdered : (c.cleared topicFilter).books.HeapOrdered :=
    ⟨ordered.1, ordered.2, ordered.3, ordered.4⟩
  unfold uiotMqttUnsubscribe
  rw [clearSlots_finRange]
  generalize (List.finRange maxSubTopics).any
    (fun i => clearsSlot topicFilter (c.subHandles i)) = suberExists
  split
  · exact owned
  split
  · exact owned
  cases suberExists with
  | false => exact cleared
  | true =>
      dsimp only
      split
      · exact cleared
      · exact requestStored_filtersOwned clearedOrdered cleared topicFilter
          .unsubscribe _ (fun _ => rfl) env

/-- Publishing touches the identifiers, its own list and the heap only. -/
theorem uiotMqttPublish_books (c : Client) (topicName : CString)
    (params : PublishParams) (env : RequestEnv) :
    ∃ nextPacketId infos heapTop, c.heapTop ≤ heapTop ∧
      (uiotMqttPublish c topicName params env).1.books =
        { c.books with
          nextPacketId, listPubWaitAck := infos, heapTop } := by
  rcases requestChecked_cases c topicName params.qos
      (publishChecked c topicName params env) with
    ⟨checked, publish⟩ | ⟨-, ret, refused⟩
  · rw [show uiotMqttPublish c topicName params env = _ from publish]
    unfold publishChecked
    cases qos : params.qos with
    | qos2 => exact absurd qos checked.2.2.1
    | qos0 =>
        simp only [reduceCtorEq, if_false]
        split
        · exact ⟨_, _, _, Nat.le_refl _, rfl⟩
        · rw [publishSerialized_qos0]
          exact ⟨_, _, _, Nat.le_refl _, rfl⟩
    | qos1 =>
        simp only [if_true]
        split
        · exact ⟨_, _, _, Nat.le_refl _, rfl⟩
        · rename_i writeBuf len _
          rcases publishSerialized_cases
              { getNextPacketId (c.lock .writeBuf) with writeBuf } len
              (nextId c.nextPacketId) env with
            ⟨-, -, books, -⟩ | ⟨-, ⟨infos, heapTop, grows, -, books⟩, -⟩
          · exact ⟨_, _, _, Nat.le_succ _, books⟩
          · exact ⟨_, _, _, grows, books⟩
  · rw [show uiotMqttPublish c topicName params env = _ from refused]
    exact ⟨_, _, _, Nat.le_refl _, rfl⟩

/-! ## Runs -/

/-- The nodes with the identifier of a SUBACK or an UNSUBACK wait.  An UNSUBACK
finds one, unless the handle that nothing fills holds no filter. -/
def Books.Answered (b : Books) (env : CycleEnv) : Received → Prop
  | .suback packet =>
      env.iteratorAllocated = true → b.CarriersWait packet.packetId
  | .unsuback packetId =>
      (env.iteratorAllocated = true → b.CarriersWait packetId) ∧
        (env.staleHandle.topicFilter = none ∨
          env.iteratorAllocated = true ∧ ¬b.NoCarrier packetId)
  | _ => True

instance (b : Books) (packetId : UInt16) :
    Decidable (b.CarriersWait packetId) :=
  inferInstanceAs (Decidable (∀ info ∈ b.listSubWaitAck, _ → _))

instance (b : Books) (packetId : UInt16) : Decidable (b.NoCarrier packetId) :=
  inferInstanceAs (Decidable (∀ info ∈ b.listSubWaitAck, _))

instance (b : Books) (env : CycleEnv) :
    (received : Received) → Decidable (b.Answered env received)
  | .suback _ => inferInstanceAs (Decidable (_ → _))
  | .unsuback _ => inferInstanceAs (Decidable (_ ∧ _))
  | .puback _ => inferInstanceAs (Decidable True)
  | .other => inferInstanceAs (Decidable True)

/-- The acknowledgement that a step receives is for requests that wait. -/
def FilterAnswered (c : Client) : Op → Prop
  | .cycle env => c.books.Answered env (c.received env)
  | _ => True

instance (c : Client) : (op : Op) → Decidable (FilterAnswered c op)
  | .cycle env =>
      inferInstanceAs (Decidable (c.books.Answered env (c.received env)))
  | .publish .. => inferInstanceAs (Decidable True)
  | .subscribe .. => inferInstanceAs (Decidable True)
  | .unsubscribe .. => inferInstanceAs (Decidable True)
  | .pubInfoProc _ => inferInstanceAs (Decidable True)
  | .subInfoProc _ => inferInstanceAs (Decidable True)
  | .other .. => inferInstanceAs (Decidable True)

/-- A step whose acknowledgements are for waiting requests keeps filters
owned. -/
theorem Client.step_filtersOwned {c : Client} {op : Op}
    (ordered : c.books.HeapOrdered) (owned : c.books.FiltersOwned)
    (answered : FilterAnswered c op) : (c.step op).books.FiltersOwned := by
  cases op with
  | publish topicName params env =>
      obtain ⟨_, _, _, grows, books⟩ :=
        uiotMqttPublish_books c topicName params env
      rw [Client.step, books]
      exact owned.of_subperm grows (.refl _)
  | subscribe topicFilter params env =>
      exact uiotMqttSubscribe_filtersOwned ordered owned topicFilter params env
  | unsubscribe topicFilter env =>
      exact uiotMqttUnsubscribe_filtersOwned ordered owned topicFilter env
  | cycle env =>
      have receives : c.books.Receives (c.step (.cycle env)).books env
          (c.received env) := cycleForRead_receives c 0 env
      change c.books.Answered env (c.received env) at answered
      generalize c.received env = received at receives answered
      cases received with
      | puback packetId =>
          rw [show (c.step (.cycle env)).books = _ from receives]
          exact owned.of_subperm (Nat.le_refl c.heapTop) (.refl _)
      | suback packet =>
          rw [show (c.step (.cycle env)).books = _ from receives]
          exact owned.suback packet env.iteratorAllocated answered
      | unsuback packetId =>
          rw [show (c.step (.cycle env)).books = _ from receives]
          exact owned.unsuback packetId env.staleHandle env.iteratorAllocated
            answered.1 answered.2
      | other =>
          obtain ⟨more, books, -⟩ := receives
          rw [books]
          exact owned.of_subperm (Nat.le_refl c.heapTop) (.refl _)
  | pubInfoProc iteratorAllocated =>
      cases iteratorAllocated with
      | false => exact owned
      | true =>
          rw [Client.step, uiotMqttPubInfoProc_books c ordered.pub_nodup]
          exact owned.of_subperm (Nat.le_refl c.heapTop) (.refl _)
  | subInfoProc iteratorAllocated =>
      cases iteratorAllocated with
      | false => exact owned
      | true =>
          rw [Client.step, uiotMqttSubInfoProc_books c ordered.sub_nodup]
          exact owned.sweepSub c
  | other change kept =>
      obtain ⟨more, books, -⟩ := kept c
      rw [Client.step, books]
      exact owned.of_subperm (Nat.le_refl c.heapTop) (.refl _)

/-- As long as every acknowledgement is for requests that wait, and none of a
cancellation comes without one, no filter is ever freed twice, and no slot or
waiting node holds one that has been freed or that another one holds. -/
theorem run_filtersOwned (params : MQTTInitParams) (clock : Nat)
    (ops : List Op)
    (answered : Machine.Along Client.step FilterAnswered
      (uiotMqttInit params clock) ops) :
    (Machine.run Client.step (uiotMqttInit params clock)
      ops).books.FiltersOwned := by
  have initially : (uiotMqttInit params clock).books.FiltersOwned :=
    ⟨List.nodup_nil, List.forall_mem_nil _⟩
  have both := answered.run_preserves
    (fun c => c.books.HeapOrdered ∧ c.books.FiltersOwned)
    (fun c op invariant answered =>
      ⟨c.step_heapOrdered op invariant.1,
        Client.step_filtersOwned invariant.1 invariant.2 answered⟩)
    ⟨uiotMqttInit_heapOrdered params clock, initially⟩
  exact both.2

/-- A subscription that is granted and cancelled again. -/
theorem run_filtersOwned_cancelling :
    (Machine.run Client.step (uiotMqttInit ⟨2000, true⟩ 0)
      (subscribing ++
        [.cycle (arriving [0x90, 3, 0, 2, 1]), .subInfoProc true,
          .unsubscribe textA unhindered,
          .cycle (arriving [0xB0, 2, 0, 3])])).books.FiltersOwned :=
  run_filtersOwned ⟨2000, true⟩ 0 _ (by decide)

end Mqtt
end UIoT
