import UIoT.Mqtt.Sweeps
import UIoT.Utils.List

/-!
# Sweeping the nodes

The sweeps of the waiting lists on the nodes of `utils_list.c`.  The iterator
goes from the tail to the head, and a node that is to be dropped is removed only
once the iterator has left it.  No pointer to a freed node is followed, and what
remains is a list of the nodes that stay.
-/

namespace UIoT
namespace Mqtt

/-! ## The loop on nodes -/

/-- The nodes of a waiting list, some of them without a value. -/
abbrev InfoNodes (Info : Type) := LinkedList (Option Info)

/-- What a sweep does with an expired node, given by its address and its
value. -/
abbrev Expiry (Info : Type) :=
  Client → Nat → Info → InfoNodes Info → Option (Client × InfoNodes Info)

/-- `uiot_mqtt_pub_info_proc` at an expired node.  Its timer is started again
while the mutex is free. -/
def expirePubInfo : Expiry UIoTPubInfo := fun c node info nodes => do
  let c := c.unlock .listPub
  let restarted :=
    { info with pubStartTime := .countdownMs c.clock c.commandTimeoutMs }
  let nodes ← nodes.setVal node (some restarted)
  let c := c.lock .listPub
  pure (c.raise (.publishTimeout info.msgId), nodes)

/-- `uiot_mqtt_sub_info_proc` at an expired node. -/
def expireSubInfo : Expiry UIoTSubInfo := fun c _ info nodes =>
  some ((c.raise info.timeoutEvent).free info.handler.topicFilter, nodes)

namespace WaitingList

variable {Info : Type} (list : WaitingList Info) (expire : Expiry Info)

/-- A turn of the loop at a node: whether the node is to be removed, and what
has become of the client and the nodes. -/
def visitNode (c : Client) (node : Nat) (nodes : InfoNodes Info) :
    Option (Bool × Client × InfoNodes Info) := do
  let cell ← nodes.nodes node
  match cell.val with
  | none => some (true, c, nodes)
  | some info =>
      if list.nodeState info = .invalid then
        some (true, c, nodes)
      else if !c.isConnected then
        some (false, c, nodes)
      else if (list.startTime info).leftMs c.clock > 0 then
        some (false, c, nodes)
      else
        (expire c node info nodes).map (true, ·)

/-- `list_remove` of the node that is to be removed, if there is one. -/
def removeTempNode (nodes : InfoNodes Info) :
    (tempNode : Option Nat) → Option (InfoNodes Info)
  | none => some nodes
  | some node => nodes.listRemove node

/-- The loop of a sweep, for a number of turns. -/
def sweepLoop : (turns : Nat) → ListIterator → (tempNode : Option Nat) →
    Client → InfoNodes Info → Option (Client × InfoNodes Info)
  | 0, _, _, _, _ => none
  | turns + 1, iter, tempNode, c, nodes => do
      let (node, iter) ← nodes.listIteratorNext iter
      let nodes ← removeTempNode nodes tempNode
      match node with
      | none => some (c, nodes)
      | some node => do
          let (drops, c, nodes) ← list.visitNode expire c node nodes
          let tempNode := if drops then some node else none
          sweepLoop turns iter tempNode c nodes

/-- A sweep of the nodes under the mutex of the list. -/
def infoProcNodes (mutex : Lock) (turns : Nat) (c : Client)
    (nodes : InfoNodes Info) (iteratorAllocated : Bool) :
    Option (Client × InfoNodes Info) :=
  let c := c.lock mutex
  if nodes.len = 0 then some (c.unlock mutex, nodes)
  else if !iteratorAllocated then some (c.unlock mutex, nodes)
  else do
    let (c, nodes) ←
      list.sweepLoop expire turns (nodes.listIteratorNew .tail) none c nodes
    pure (c.unlock mutex, nodes)

end WaitingList

/-- `uiot_mqtt_pub_info_proc` on the nodes of `list_pub_wait_ack`. -/
def uiotMqttPubInfoProcNodes (turns : Nat) (c : Client)
    (nodes : InfoNodes UIoTPubInfo) (iteratorAllocated : Bool) :
    Option (Client × InfoNodes UIoTPubInfo) :=
  pubWaitAck.infoProcNodes expirePubInfo .listPub turns c nodes
    iteratorAllocated

/-- `uiot_mqtt_sub_info_proc` on the nodes of `list_sub_wait_ack`. -/
def uiotMqttSubInfoProcNodes (turns : Nat) (c : Client)
    (nodes : InfoNodes UIoTSubInfo) (iteratorAllocated : Bool) :
    Option (Client × InfoNodes UIoTSubInfo) :=
  subWaitAck.infoProcNodes expireSubInfo .listSub turns c nodes
    iteratorAllocated

/-! ## What a sweep makes of the nodes -/

namespace WaitingList

variable {Info : Type} (list : WaitingList Info)

/-- The node stays on the list. -/
def staysNode (c : Client) (entry : Nat × Option Info) : Bool :=
  entry.2.any (list.stays c)

/-- The value of a node that expires. -/
def expiredInfo (c : Client) (entry : Nat × Option Info) : Option Info :=
  entry.2.filter (list.expires c)

/-- An expired node is told so and stays linked. -/
structure Expires (mutex : Lock) (expire : Expiry Info) : Prop where
  held_timeOut : ∀ c info, (list.timeOut c info).held = c.held
  told : ∀ {c : Client} {held : List Lock}
    {front back : List (Nat × Option Info)}
    {entry : Nat × Option Info} {nodes : InfoNodes Info} (info : Info),
    c.held = mutex :: held →
    nodes.Holds (front ++ entry :: back) →
    ∃ after val, expire c entry.1 info nodes =
        some (list.timeOut c info, after) ∧
      after.Holds (front ++ (entry.1, val) :: back)

theorem expires_pubWaitAck : pubWaitAck.Expires .listPub expirePubInfo where
  held_timeOut _ _ := rfl
  told {c held front back entry nodes} info locked holds := by
    obtain ⟨after, written, still, -⟩ := LinkedList.setVal_holds holds
      (some { info with
        pubStartTime := .countdownMs c.clock c.commandTimeoutMs })
    have relocked : (c.unlock .listPub).lock .listPub = c := by
      rw [Client.unlock, Client.lock, locked, List.erase_cons_head, ← locked]
    refine ⟨after, _, ?_, still⟩
    unfold expirePubInfo
    dsimp only
    rw [relocked]
    have written : nodes.setVal entry.1 (some { info with
        pubStartTime := .countdownMs (c.unlock .listPub).clock
          (c.unlock .listPub).commandTimeoutMs }) = some after := written
    rw [written]
    rfl

theorem expires_subWaitAck : subWaitAck.Expires .listSub expireSubInfo where
  held_timeOut _ _ := rfl
  told {_ _ _ _ entry nodes} _ _ holds := ⟨nodes, entry.2, rfl, holds⟩

section Loop

variable {list} {mutex : Lock} {expire : Expiry Info} {held : List Lock}

/-- A turn drops a node that does not stay, and tells an expired one. -/
theorem visitNode_holds (expires : list.Expires mutex expire) {c : Client}
    (locked : c.held = mutex :: held) {front back : List (Nat × Option Info)}
    {entry : Nat × Option Info} {nodes : InfoNodes Info}
    (holds : nodes.Holds (front ++ entry :: back)) :
    ∃ after val,
      list.visitNode expire c entry.1 nodes =
        some (!list.staysNode c entry,
          (list.expiredInfo c entry).toList.foldl list.timeOut c, after) ∧
      after.Holds (front ++ (entry.1, val) :: back) ∧
      (list.staysNode c entry = true → val = entry.2) := by
  obtain ⟨node, value⟩ := entry
  unfold visitNode
  rw [holds.cell]
  simp only [Option.bind_eq_bind, Option.bind_some]
  cases value with
  | none => exact ⟨nodes, none, rfl, holds, fun _ => rfl⟩
  | some info =>
      dsimp only
      have kept : ∀ drops, list.expires c info = false →
          list.stays c info = !drops →
          ∃ after val,
            some (drops, c, nodes) = some (!list.staysNode c (node, some info),
              (list.expiredInfo c (node, some info)).toList.foldl list.timeOut
                c, after) ∧
            after.Holds (front ++ (node, val) :: back) ∧
            (list.staysNode c (node, some info) = true → val = some info) := by
        intro drops early stays
        have told : list.expiredInfo c (node, some info) = none :=
          Option.filter_some_neg (by simp [early])
        refine ⟨nodes, some info, ?_, holds, fun _ => rfl⟩
        rw [told]
        simp [staysNode, stays]
      split
      · rename_i invalid
        exact kept true (by simp [WaitingList.expires, invalid])
          (by simp [WaitingList.stays, invalid])
      rename_i valid
      have normal : list.nodeState info = .normal := by
        cases state : list.nodeState info with
        | normal => rfl
        | invalid => exact absurd state valid
      split
      · rename_i offline
        have early : list.expires c info = false := by
          simp only [Bool.not_eq_true'] at offline
          simp [WaitingList.expires, offline]
        exact kept false early (by simp [WaitingList.stays, normal, early])
      rename_i online
      split
      · rename_i waiting
        have early : list.expires c info = false := by
          simp [WaitingList.expires, Nat.ne_of_gt waiting]
        exact kept false early (by simp [WaitingList.stays, normal, early])
      · rename_i late
        have expired : list.expires c info = true := by
          simp only [Bool.not_eq_true', Bool.not_eq_false] at online
          simpa [WaitingList.expires, normal, online] using late
        have drops : list.stays c info = false := by
          simp [WaitingList.stays, expired]
        have listed : list.expiredInfo c (node, some info) = some info :=
          Option.filter_some_pos expired
        obtain ⟨after, val, told, still⟩ := expires.told info locked holds
        refine ⟨after, val, ?_, still, fun stays => ?_⟩
        · rw [told, listed]
          simp [staysNode, drops]
        · simp [staysNode, drops] at stays

theorem expires_timeOut (lawful : list.Lawful) (c : Client) (info : Info) :
    list.expires (list.timeOut c info) = list.expires c := by
  funext other
  rw [WaitingList.expires, WaitingList.expires, lawful.isConnected_timeOut,
    lawful.clock_timeOut]

/-- Telling nodes that they have expired makes no other node expire. -/
theorem expires_foldl (lawful : list.Lawful) (infos : List Info) (c : Client) :
    list.expires (infos.foldl list.timeOut c) = list.expires c := by
  induction infos generalizing c with
  | nil => rfl
  | cons info infos inductionHypothesis =>
      rw [List.foldl_cons, inductionHypothesis, expires_timeOut lawful]

theorem held_foldl (expires : list.Expires mutex expire) (infos : List Info)
    (c : Client) : (infos.foldl list.timeOut c).held = c.held := by
  induction infos generalizing c with
  | nil => rfl
  | cons info infos inductionHypothesis =>
      rw [List.foldl_cons, inductionHypothesis, expires.held_timeOut]

/-- The node that is to be removed is removed. -/
theorem removeTempNode_holds {front kept : List (Nat × Option Info)}
    {temp : Option (Nat × Option Info)} {nodes : InfoNodes Info}
    (holds : nodes.Holds (front ++ (temp.toList ++ kept))) :
    ∃ after, removeTempNode nodes (temp.map Prod.fst) = some after ∧
      after.Holds (front ++ kept) := by
  cases temp with
  | none => exact ⟨nodes, rfl, holds⟩
  | some entry =>
      obtain ⟨after, removed, still, -⟩ := LinkedList.listRemove_holds holds
      exact ⟨after, removed, still⟩

/-- The loop sweeps the nodes in front of the iterator, given a turn for each of
them and one more. -/
theorem sweepLoop_holds (lawful : list.Lawful)
    (expires : list.Expires mutex expire) {c : Client}
    (locked : c.held = mutex :: held) {front kept : List (Nat × Option Info)}
    {temp : Option (Nat × Option Info)} {nodes : InfoNodes Info}
    (holds : nodes.Holds (front ++ (temp.toList ++ kept))) {turns : Nat}
    (enough : front.length < turns) :
    ∃ after,
      list.sweepLoop expire turns ⟨(front.map Prod.fst).getLast?, .tail⟩
          (temp.map Prod.fst) c nodes =
        some ((front.reverse.filterMap (list.expiredInfo c)).foldl
          list.timeOut c, after) ∧
      after.Holds (front.filter (list.staysNode c) ++ kept) := by
  induction front using List.reverseRecOn
    generalizing kept temp turns c nodes with
  | nil =>
      obtain ⟨turns, rfl⟩ := Nat.exists_eq_succ_of_ne_zero
        (Nat.ne_of_gt enough)
      obtain ⟨after, removed, still⟩ := removeTempNode_holds holds
      refine ⟨after, ?_, still⟩
      rw [sweepLoop]
      simp only [List.map_nil, List.getLast?_nil, LinkedList.listIteratorNext,
        Option.bind_eq_bind, Option.bind_some, removed]
      rfl
  | append_singleton front entry inductionHypothesis =>
      obtain ⟨turns, rfl⟩ := Nat.exists_eq_succ_of_ne_zero
        (Nat.ne_of_gt (Nat.zero_lt_of_lt enough))
      have shorter : front.length < turns := by
        rw [List.length_append, List.length_singleton] at enough
        exact Nat.lt_of_succ_lt_succ enough
      have last : ((front ++ [entry]).map Prod.fst).getLast? =
          some entry.1 := by simp
      obtain ⟨fewer, removed, still⟩ := removeTempNode_holds holds
      rw [List.append_assoc, List.singleton_append] at holds still
      have next := LinkedList.listIteratorNext_tail holds
      obtain ⟨visited, val, visit, visitedHolds, same⟩ :=
        visitNode_holds expires locked still
      rw [last, sweepLoop]
      simp only [next, removed, visit, Option.bind_eq_bind, Option.bind_some]
      let infos := (list.expiredInfo c entry).toList
      have lockedStill : (infos.foldl list.timeOut c).held = mutex :: held :=
        (held_foldl expires infos c).trans locked
      have sameExpired : list.expiredInfo (infos.foldl list.timeOut c) =
          list.expiredInfo c := by
        funext other
        rw [expiredInfo, expiredInfo, expires_foldl lawful]
      have sameStays : list.staysNode (infos.foldl list.timeOut c) =
          list.staysNode c := by
        funext other
        unfold staysNode WaitingList.stays
        rw [expires_foldl lawful]
      have events : ((front ++ [entry]).reverse.filterMap
          (list.expiredInfo c)).foldl list.timeOut c =
          (front.reverse.filterMap (list.expiredInfo c)).foldl list.timeOut
            (infos.foldl list.timeOut c) := by
        rw [List.reverse_append, List.reverse_singleton,
          List.singleton_append, List.filterMap_cons]
        simp only [infos]
        cases list.expiredInfo c entry <;> rfl
      rw [events, List.filter_append]
      cases stays : list.staysNode c entry with
      | true =>
          rw [Bool.not_true, if_neg (by decide)]
          rw [same stays] at visitedHolds
          have rest : visited.Holds (front ++
              ((none : Option (Nat × Option Info)).toList ++
                entry :: kept)) := visitedHolds
          obtain ⟨after, loops, rest⟩ := inductionHypothesis lockedStill rest
            shorter
          rw [sameExpired, sameStays] at *
          refine ⟨after, loops, ?_⟩
          rw [List.filter_singleton, stays, List.append_assoc]
          exact rest
      | false =>
          rw [Bool.not_false, if_pos rfl]
          have rest : visited.Holds (front ++
              ((some (entry.1, val)).toList ++ kept)) := visitedHolds
          obtain ⟨after, loops, rest⟩ := inductionHypothesis lockedStill rest
            shorter
          rw [sameExpired, sameStays] at *
          refine ⟨after, loops, ?_⟩
          rw [List.filter_singleton, stays, List.append_assoc]
          exact rest

/-- A sweep leaves the nodes that stay and tells the ones that have expired, the
last one first. -/
theorem infoProcNodes_holds (lawful : list.Lawful)
    (expires : list.Expires mutex expire) (c : Client)
    {entries : List (Nat × Option Info)} {nodes : InfoNodes Info}
    (consistent : nodes.Consistent entries) {turns : Nat}
    (enough : entries.length < turns) :
    ∃ after,
      list.infoProcNodes expire mutex turns c nodes true =
        some (((entries.reverse.filterMap
          (list.expiredInfo (c.lock mutex))).foldl list.timeOut
            (c.lock mutex)).unlock mutex, after) ∧
      after.Consistent (entries.filter (list.staysNode (c.lock mutex))) := by
  unfold infoProcNodes
  dsimp only
  by_cases empty : nodes.len = 0
  · rw [if_pos empty]
    obtain rfl := consistent.eq_nil empty
    exact ⟨nodes, rfl, consistent⟩
  rw [if_neg empty, if_neg (by decide),
    LinkedList.listIteratorNew_tail consistent.holds]
  have locked : (c.lock mutex).held = mutex :: c.held := rfl
  have holds : nodes.Holds (entries ++ ((none : Option _).toList ++ [])) := by
    simpa using consistent.holds
  obtain ⟨after, loops, still⟩ :=
    sweepLoop_holds lawful expires locked holds enough
  rw [List.append_nil] at still
  have fewer := List.length_filter_le (list.staysNode (c.lock mutex)) entries
  refine ⟨after, ?_,
    still.consistent (Nat.lt_of_le_of_lt fewer consistent.small)⟩
  rw [Option.map_none] at loops
  rw [loops]
  rfl

/-- The nodes of a waiting list of the client. -/
def entryOf (info : Info) : Nat × Option Info := (list.address info, some info)

/-- A sweep of the nodes of a waiting list tells the client what the sweep of
the list tells it, and leaves the nodes of what that sweep leaves. -/
theorem infoProcNodes_refines (lawful : list.Lawful)
    (expires : list.Expires mutex expire) (c : Client)
    (nodes_lock : list.nodes (c.lock mutex) = list.nodes c)
    (nodup : ((list.nodes c).map list.address).Nodup) {nodes : InfoNodes Info}
    (consistent : nodes.Consistent ((list.nodes c).map list.entryOf))
    {turns : Nat} (enough : (list.nodes c).length < turns) :
    ∃ swept after,
      list.infoProcNodes expire mutex turns c nodes true =
        some (swept.unlock mutex, after) ∧
      list.infoProc mutex c true =
        (list.setNodes swept ((list.nodes c).filter (list.stays c))).unlock
          mutex ∧
      after.Consistent
        (((list.nodes c).filter (list.stays c)).map list.entryOf) := by
  have expired : ((list.nodes c).map list.entryOf).reverse.filterMap
      (list.expiredInfo (c.lock mutex)) =
        (list.nodes c).reverse.filter (list.expires c) := by
    rw [← List.map_reverse, List.filterMap_map, ← List.filterMap_eq_filter]
    rfl
  have stays : ((list.nodes c).map list.entryOf).filter
      (list.staysNode (c.lock mutex)) =
        ((list.nodes c).filter (list.stays c)).map list.entryOf :=
    List.filter_map ..
  obtain ⟨after, swept, still⟩ := infoProcNodes_holds lawful expires c
    consistent (by rwa [List.length_map])
  rw [expired] at swept
  rw [stays] at still
  exact ⟨_, after, swept, infoProc_eq lawful mutex c nodes_lock nodup, still⟩

/-- Without an iterator nothing happens. -/
theorem infoProcNodes_refused (turns : Nat) (c : Client)
    (nodes : InfoNodes Info) :
    list.infoProcNodes expire mutex turns c nodes false = some (c, nodes) := by
  have unlocked : (c.lock mutex).unlock mutex = c := by
    rw [Client.unlock, Client.lock, List.erase_cons_head]
  unfold infoProcNodes
  dsimp only
  rw [unlocked]
  split <;> rfl

end Loop

end WaitingList

/-! ## Exact sweeps -/

/-- The nodes a sweep leaves are the `NORMAL` ones that have not waited too long
on a connected client, in their order, and the events it raises are those of the
`NORMAL` ones that have, one for each. -/
def SweepsExactly {Info : Type} (list : WaitingList Info)
    (timeout : Info → MQTTEvent)
    (proc : Nat → Client → InfoNodes Info → Bool →
      Option (Client × InfoNodes Info)) (iteratorAllocated : Bool) : Prop :=
  ∀ (c : Client) (nodes : InfoNodes Info) (entries : List (Nat × Option Info))
    (turns : Nat), c.eventHandler = true → nodes.Consistent entries →
    entries.length < turns →
    ∃ next after, proc turns c nodes iteratorAllocated = some (next, after) ∧
      after.Consistent (entries.filter (list.staysNode c)) ∧
      next.events = c.events ++
        (entries.reverse.filterMap (list.expiredInfo c)).map timeout ∧
      next.held = c.held

/-- A sweep leaves the nodes as they are and raises nothing. -/
def SweepsNothing {Info : Type}
    (proc : Nat → Client → InfoNodes Info → Bool →
      Option (Client × InfoNodes Info)) : Prop :=
  ∀ (c : Client) (nodes : InfoNodes Info) (turns : Nat),
    proc turns c nodes false = some (c, nodes)

theorem uiotMqttPubInfoProcNodes_sweeps :
    SweepsExactly pubWaitAck (fun info => .publishTimeout info.msgId)
      uiotMqttPubInfoProcNodes true := by
  intro c nodes entries turns installed consistent enough
  obtain ⟨after, swept, still⟩ := WaitingList.infoProcNodes_holds
    lawful_pubWaitAck WaitingList.expires_pubWaitAck c consistent enough
  refine ⟨_, after, swept, still, ?_, ?_⟩
  · have raised := congrArg Books.events (foldl_timeOut_pubWaitAck
      (entries.reverse.filterMap (pubWaitAck.expiredInfo c)) (c.lock .listPub))
    exact raised.trans (if_pos installed)
  · have held := WaitingList.held_foldl WaitingList.expires_pubWaitAck
      (entries.reverse.filterMap (pubWaitAck.expiredInfo c)) (c.lock .listPub)
    exact (congrArg (List.erase · Lock.listPub) held).trans
      (List.erase_cons_head ..)

theorem uiotMqttSubInfoProcNodes_sweeps :
    SweepsExactly subWaitAck UIoTSubInfo.timeoutEvent
      uiotMqttSubInfoProcNodes true := by
  intro c nodes entries turns installed consistent enough
  obtain ⟨after, swept, still⟩ := WaitingList.infoProcNodes_holds
    lawful_subWaitAck WaitingList.expires_subWaitAck c consistent enough
  refine ⟨_, after, swept, still, ?_, ?_⟩
  · have raised := congrArg Books.events (foldl_timeOut_subWaitAck
      (entries.reverse.filterMap (subWaitAck.expiredInfo c)) (c.lock .listSub))
    exact raised.trans (if_pos installed)
  · have held := WaitingList.held_foldl WaitingList.expires_subWaitAck
      (entries.reverse.filterMap (subWaitAck.expiredInfo c)) (c.lock .listSub)
    exact (congrArg (List.erase · Lock.listSub) held).trans
      (List.erase_cons_head ..)

/-- Both sweeps are exact once they have an iterator, and do nothing without
one. -/
theorem infoProcNodes_sweepExactly :
    (SweepsExactly pubWaitAck (fun info => .publishTimeout info.msgId)
        uiotMqttPubInfoProcNodes true ∧
      SweepsNothing uiotMqttPubInfoProcNodes) ∧
      SweepsExactly subWaitAck UIoTSubInfo.timeoutEvent
        uiotMqttSubInfoProcNodes true ∧
      SweepsNothing uiotMqttSubInfoProcNodes :=
  ⟨⟨uiotMqttPubInfoProcNodes_sweeps,
      fun c nodes turns => WaitingList.infoProcNodes_refused turns c nodes⟩,
    uiotMqttSubInfoProcNodes_sweeps,
    fun c nodes turns => WaitingList.infoProcNodes_refused turns c nodes⟩

/-- A node on its own is a list. -/
theorem exists_singleton {α : Type} (val : α) :
    ∃ nodes : LinkedList α, nodes.Consistent [(0, val)] := by
  let empty : LinkedList α := .listNew fun _ => none
  have free : empty.nodes 0 = none := rfl
  obtain ⟨fresh, allocated⟩ :=
    LinkedList.listNodeNew_holds (LinkedList.listNew_holds _) free val
  obtain ⟨nodes, -, holds⟩ := LinkedList.listRpush_holds allocated
    (Function.update_self ..) fresh (Nat.two_pow_pos 32)
  exact ⟨nodes, holds, congrArg UInt32.toNat holds.len⟩

/-- Without an iterator a marked node stays. -/
theorem markedNode_stays :
    ¬∀ iteratorAllocated,
      SweepsExactly pubWaitAck (fun info => .publishTimeout info.msgId)
        uiotMqttPubInfoProcNodes iteratorAllocated := by
  intro all
  let marked : UIoTPubInfo := ⟨0, .init, .invalid, 1⟩
  obtain ⟨nodes, consistent⟩ := exists_singleton (some marked)
  obtain ⟨next, after, swept, still, -⟩ := all false
    (uiotMqttInit ⟨2000, true⟩ 0) nodes _ 2 rfl consistent (by decide)
  have refused : uiotMqttPubInfoProcNodes 2 (uiotMqttInit ⟨2000, true⟩ 0) nodes
      false = some (uiotMqttInit ⟨2000, true⟩ 0, nodes) :=
    WaitingList.infoProcNodes_refused ..
  obtain ⟨-, rfl⟩ := Prod.mk.inj (Option.some.inj (refused.symm.trans swept))
  have counts := consistent.counts.symm.trans still.counts
  exact absurd counts (by decide)

end Mqtt
end UIoT
