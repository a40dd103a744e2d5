import UIoT.Library.Ledger
import UIoT.Mqtt.Books

/-!
# Sweeping the waiting lists

A sweep walks its list from the tail, drops the nodes an acknowledgement has
marked, and drops the expired ones with their timeout events.  What remains are
the waiting nodes, in their order.
-/

namespace UIoT
namespace Mqtt

/-! ## The loop -/

namespace WaitingList

variable {Info : Type} (list : WaitingList Info)

/-- Reading and writing the nodes of a list does not interfere with the rest of
the client. -/
structure Lawful : Prop where
  nodes_setNodes : ∀ c infos, list.nodes (list.setNodes c infos) = infos
  setNodes_setNodes : ∀ c infos others,
    list.setNodes (list.setNodes c infos) others = list.setNodes c others
  setNodes_nodes : ∀ c, list.setNodes c (list.nodes c) = c
  nodes_timeOut : ∀ c info, list.nodes (list.timeOut c info) = list.nodes c
  timeOut_setNodes : ∀ c infos info,
    list.timeOut (list.setNodes c infos) info =
      list.setNodes (list.timeOut c info) infos
  isConnected_setNodes : ∀ c infos,
    (list.setNodes c infos).isConnected = c.isConnected
  clock_setNodes : ∀ c infos, (list.setNodes c infos).clock = c.clock
  isConnected_timeOut : ∀ c info,
    (list.timeOut c info).isConnected = c.isConnected
  clock_timeOut : ∀ c info, (list.timeOut c info).clock = c.clock

/-- The node waits and has waited too long on a connected client. -/
def expires (c : Client) (info : Info) : Bool :=
  list.nodeState info = .normal && c.isConnected &&
    (list.startTime info).leftMs c.clock = 0

/-- The node stays on the list. -/
def stays (c : Client) (info : Info) : Bool :=
  list.nodeState info = .normal && !list.expires c info

/-- Removing the node with an address no other node has. -/
theorem eraseP_of_nodup {front kept : List Info} {node : Info}
    (nodup : ((front ++ node :: kept).map list.address).Nodup) :
    (front ++ node :: kept).eraseP
        (fun other => list.address other = list.address node) =
      front ++ kept := by
  have absent : ∀ other ∈ front,
      ¬(decide (list.address other = list.address node) = true) := by
    intro other mem equal
    rw [List.map_append, List.map_cons] at nodup
    have apart := (List.nodup_append.mp nodup).2.2 (list.address other)
      (List.mem_map_of_mem mem) (list.address node) List.mem_cons_self
    exact apart (of_decide_eq_true equal)
  rw [List.eraseP_append_right _ absent, List.eraseP_cons_of_pos (by simp)]

variable {list}

/-- The loop sweeps the nodes in front of those it has kept. -/
theorem infoLoop_eq (lawful : list.Lawful) {infos kept : List Info} (c : Client)
    (nodup : ((infos.reverse ++ kept).map list.address).Nodup) :
    list.infoLoop infos (list.setNodes c (infos.reverse ++ kept)) =
      list.setNodes ((infos.filter (list.expires c)).foldl list.timeOut c)
        (infos.reverse.filter (list.stays c) ++ kept) := by
  induction infos generalizing c kept with
  | nil => rfl
  | cons info infos inductionHypothesis =>
      rw [List.reverse_cons, List.append_assoc, List.singleton_append] at nodup ⊢
      have nodupRest : ((infos.reverse ++ kept).map list.address).Nodup :=
        nodup.sublist (((List.sublist_cons_self info kept).append_left _).map _)
      have removed : ∀ c' : Client,
          list.remove (list.setNodes c' (infos.reverse ++ info :: kept)) info =
            list.setNodes c' (infos.reverse ++ kept) := by
        intro c'
        rw [remove, lawful.nodes_setNodes, lawful.setNodes_setNodes,
          list.eraseP_of_nodup nodup]
      rw [infoLoop, lawful.isConnected_setNodes, lawful.clock_setNodes]
      by_cases invalid : list.nodeState info = .invalid
      · have expires : list.expires c info = false := by
          simp [WaitingList.expires, invalid]
        have stays : list.stays c info = false := by
          simp [WaitingList.stays, invalid]
        rw [if_pos invalid, removed, inductionHypothesis c nodupRest]
        simp [List.filter_append, expires, stays]
      have normal : list.nodeState info = .normal := by
        cases state : list.nodeState info with
        | normal => rfl
        | invalid => exact absurd state invalid
      rw [if_neg invalid]
      by_cases waits : c.isConnected = false ∨
          (list.startTime info).leftMs c.clock > 0
      · have expires : list.expires c info = false := by
          rcases waits with offline | early
          · simp [WaitingList.expires, offline]
          · simp [WaitingList.expires, Nat.ne_of_gt early]
        have stays : list.stays c info = true := by
          simp [WaitingList.stays, normal, expires]
        have kept_eq := inductionHypothesis c nodup
        rcases waits with offline | early
        · rw [if_pos (by simp [offline]), kept_eq]
          simp [List.filter_append, expires, stays]
        · rw [if_pos early, ite_self, kept_eq]
          simp [List.filter_append, expires, stays]
      · obtain ⟨online, late⟩ := not_or.mp waits
        have online : c.isConnected = true := by simpa using online
        have expires : list.expires c info = true := by
          simpa [WaitingList.expires, normal, online] using late
        have stays : list.stays c info = false := by
          simp [WaitingList.stays, expires]
        have sameExpires : list.expires (list.timeOut c info) =
            list.expires c := by
          funext other
          rw [WaitingList.expires, WaitingList.expires,
            lawful.isConnected_timeOut, lawful.clock_timeOut]
        have sameStays : list.stays (list.timeOut c info) = list.stays c := by
          funext other
          rw [WaitingList.stays, WaitingList.stays, sameExpires]
        rw [if_neg (by simp [online]), if_neg late, lawful.timeOut_setNodes,
          removed, inductionHypothesis (list.timeOut c info) nodupRest,
          sameExpires, sameStays]
        simp [List.filter_append, expires, stays]

/-- A sweep drops the marked nodes and, with their timeouts, the expired
ones. -/
theorem infoProc_eq (lawful : list.Lawful) (mutex : Lock) (c : Client)
    (nodes_lock : list.nodes (c.lock mutex) = list.nodes c)
    (nodup : ((list.nodes c).map list.address).Nodup) :
    list.infoProc mutex c true =
      (list.setNodes
        (((list.nodes c).reverse.filter (list.expires c)).foldl
          list.timeOut (c.lock mutex))
        ((list.nodes c).filter (list.stays c))).unlock mutex := by
  have whole : (list.nodes c).reverse.reverse ++ [] =
      list.nodes (c.lock mutex) := by
    rw [List.reverse_reverse, List.append_nil, nodes_lock]
  have swept := infoLoop_eq lawful (c.lock mutex)
    (whole ▸ nodes_lock ▸ nodup)
  rw [whole, lawful.setNodes_nodes, List.append_nil,
    List.reverse_reverse] at swept
  rw [infoProc, if_pos rfl, swept]
  rfl

end WaitingList

/-- The nodes of a list, read as requests of a ledger that are answered once
they are marked, are swept as a ledger is. -/
theorem WaitingList.sweepsLedger {Info ι α : Type} [DecidableEq ι]
    (list : WaitingList Info) (c : Client)
    {entry : Info → Ledger.Entry ι α} (timer : α → Timer)
    (waits : ∀ info, (entry info).waits = (list.nodeState info = .normal : Bool))
    (startTime : ∀ info, timer (entry info).note = list.startTime info)
    (outcomes : List ι) (next : Nat) :
    Ledger.Step ⟨(list.nodes c).map entry, outcomes, next⟩
      ⟨((list.nodes c).filter (list.stays c)).map entry,
        outcomes ++ ((list.nodes c).reverse.filter (list.expires c)).map
          (fun info => (entry info).name), next⟩ := by
  let expires : Ledger.Entry ι α → Bool := fun entry =>
    entry.waits && c.isConnected && (timer entry.note).leftMs c.clock = 0
  have sameExpires : list.expires c = expires ∘ entry := by
    funext info
    simp only [WaitingList.expires, expires, Function.comp_apply, waits,
      startTime]
  have sameStays : list.stays c =
      (fun entry => entry.waits && !expires entry) ∘ entry := by
    funext info
    simp only [WaitingList.stays, sameExpires, Function.comp_apply, waits]
  have names := List.Perm.map (Ledger.Entry.name ∘ entry)
    (((list.nodes c).reverse_perm).filter (list.expires c))
  rw [sameStays, ← List.filter_map]
  refine .sweep expires _ ?_ ?_
  · intro entry _ ends
    simp only [expires, Bool.and_eq_true] at ends
    exact ends.1.1
  · change List.Perm _ ((((list.nodes c).map entry).filter expires).map _)
    rw [List.filter_map, List.map_map, ← sameExpires]
    exact names

theorem lawful_pubWaitAck : pubWaitAck.Lawful := by
  constructor <;> intros <;> rfl

theorem lawful_subWaitAck : subWaitAck.Lawful := by
  constructor <;> intros <;> rfl

namespace Books

/-- Call the event handler, if there is one, once for each event. -/
def raiseAll (b : Books) (events : List MQTTEvent) : Books :=
  { b with
    events := if b.eventHandler then b.events ++ events else b.events }

theorem raiseAll_nil (b : Books) : b.raiseAll [] = b := by
  simp [raiseAll]

theorem raiseAll_raise (b : Books) (event : MQTTEvent)
    (events : List MQTTEvent) :
    (b.raise event).raiseAll events = b.raiseAll (event :: events) := by
  unfold raiseAll raise
  cases b.eventHandler <;> simp

/-- Raising events adds these events at most. -/
theorem mem_drop_raiseAll (b : Books) {event : MQTTEvent}
    {events : List MQTTEvent}
    (mem : event ∈ (b.raiseAll events).events.drop b.events.length) :
    event ∈ events := by
  unfold raiseAll at mem
  dsimp only at mem
  split at mem
  · rwa [List.drop_left] at mem
  · rw [List.drop_length] at mem
    exact absurd mem List.not_mem_nil

/-- A sweep of the publish list, given the nodes that stay and those that
expire. -/
def sweepPub (b : Books) (stays expires : UIoTPubInfo → Bool) : Books :=
  { b.raiseAll ((b.listPubWaitAck.reverse.filter expires).map
      fun info => .publishTimeout info.msgId) with
    listPubWaitAck := b.listPubWaitAck.filter stays }

/-- A sweep of the subscribe list, given the nodes that stay and those that
expire. -/
def sweepSub (b : Books) (stays expires : UIoTSubInfo → Bool) : Books :=
  let expired := b.listSubWaitAck.reverse.filter expires
  { b.raiseAll (expired.map UIoTSubInfo.timeoutEvent) with
    listSubWaitAck := b.listSubWaitAck.filter stays
    freed := b.freed ++ expired.flatMap fun info =>
      (info.handler.topicFilter.map StoredString.address).toList }

end Books

/-- The events of expired publish nodes. -/
theorem foldl_timeOut_pubWaitAck (infos : List UIoTPubInfo) (c : Client) :
    (infos.foldl pubWaitAck.timeOut c).books =
      c.books.raiseAll (infos.map fun info => .publishTimeout info.msgId) := by
  induction infos generalizing c with
  | nil => exact (Books.raiseAll_nil c.books).symm
  | cons info infos inductionHypothesis =>
      rw [List.foldl_cons, inductionHypothesis, List.map_cons,
        ← Books.raiseAll_raise]
      rfl

/-- The events of expired subscribe nodes, and their filters freed. -/
theorem foldl_timeOut_subWaitAck (infos : List UIoTSubInfo) (c : Client) :
    (infos.foldl subWaitAck.timeOut c).books =
      { c.books.raiseAll (infos.map UIoTSubInfo.timeoutEvent) with
        freed := c.freed ++ infos.flatMap fun info =>
          (info.handler.topicFilter.map StoredString.address).toList } := by
  induction infos generalizing c with
  | nil => simp [Books.raiseAll_nil, Client.books]
  | cons info infos inductionHypothesis =>
      rw [List.foldl_cons, inductionHypothesis, List.map_cons,
        ← Books.raiseAll_raise, List.flatMap_cons, ← List.append_assoc]
      rfl

/-- `uiot_mqtt_pub_info_proc` sweeps the publish list. -/
theorem uiotMqttPubInfoProc_books (c : Client)
    (nodup : (c.listPubWaitAck.map UIoTPubInfo.address).Nodup) :
    (uiotMqttPubInfoProc c true).books =
      c.books.sweepPub (pubWaitAck.stays c) (pubWaitAck.expires c) := by
  rw [uiotMqttPubInfoProc,
    WaitingList.infoProc_eq lawful_pubWaitAck .listPub c rfl nodup]
  have raised := foldl_timeOut_pubWaitAck
    (c.listPubWaitAck.reverse.filter (pubWaitAck.expires c)) (c.lock .listPub)
  calc
    _ = { ((c.listPubWaitAck.reverse.filter (pubWaitAck.expires c)).foldl
            pubWaitAck.timeOut (c.lock .listPub)).books with
          listPubWaitAck :=
            c.listPubWaitAck.filter (pubWaitAck.stays c) } := rfl
    _ = _ := by rw [raised]; rfl

/-- `uiot_mqtt_sub_info_proc` sweeps the subscribe list. -/
theorem uiotMqttSubInfoProc_books (c : Client)
    (nodup : (c.listSubWaitAck.map UIoTSubInfo.address).Nodup) :
    (uiotMqttSubInfoProc c true).books =
      c.books.sweepSub (subWaitAck.stays c) (subWaitAck.expires c) := by
  rw [uiotMqttSubInfoProc,
    WaitingList.infoProc_eq lawful_subWaitAck .listSub c rfl nodup]
  have raised := foldl_timeOut_subWaitAck
    (c.listSubWaitAck.reverse.filter (subWaitAck.expires c)) (c.lock .listSub)
  calc
    _ = { ((c.listSubWaitAck.reverse.filter (subWaitAck.expires c)).foldl
            subWaitAck.timeOut (c.lock .listSub)).books with
          listSubWaitAck :=
            c.listSubWaitAck.filter (subWaitAck.stays c) } := rfl
    _ = _ := by rw [raised]; rfl

end Mqtt
end UIoT
