import UIoT.Library.Machine
import UIoT.Mqtt.RequestNodes
import UIoT.Utils.Nodes

/-!
# Publishing while the list is swept

One thread publishes and another one yields.  They meet at the nodes of
`list_pub_wait_ack`, whose mutex the sweep releases in the middle of its loop,
at a node that has expired.  A publish that cannot be sent then removes its node
by a pointer that the sweep may have freed, and may free a node the sweep still
points to.
-/

namespace UIoT
namespace Mqtt

/-! ## The two threads -/

/-- Where the thread in `uiot_mqtt_publish` is: sending the packet whose node it
has pushed, or about to remove the node because sending has failed. -/
inductive Publisher
  | idle
  | sending (node len : Nat)
  | failed (node : Nat)

/-- Where the thread in `uiot_mqtt_yield` is: in the loop of
`_mask_pubInfo_from`, in that of `uiot_mqtt_pub_info_proc`, or at an expired
node of the latter with the mutex released, in front of `countdown_ms` and
behind it. -/
inductive Yielder
  | idle
  | marking (iter : ListIterator) (msgId : UInt16)
  | sweeping (iter : ListIterator) (tempNode : Option Nat)
  | expired (iter : ListIterator) (node : Nat)
  | restarted (iter : ListIterator) (node : Nat)

/-- Both threads on one client.  A new node gets the address `heapTop`, so that
no address is used twice, and `freed` lists the nodes that were freed. -/
structure Race extends NodeClient where
  heapTop : Nat
  freed : List Nat
  publisher : Publisher
  yielder : Yielder

/-- What happens next: a step of a thread with what its surroundings decide, or
the clock or the link changes. -/
inductive RaceStep
  | push (len : Nat) (msgId : UInt16) (env : RequestEnv)
  | send (writes : List WriteOutcome)
  | takeBack
  | acknowledge (msgId : UInt16) (iteratorAllocated : Bool)
  | sweep (iteratorAllocated : Bool)
  | turn
  | elapse (time : Nat)
  | link (isConnected : Bool)

namespace Race

/-- Both threads in front of everything, on a new client. -/
def start (params : MQTTInitParams) (clock : Nat) : Race where
  client := uiotMqttInit params clock
  pubs := .listNew fun _ => none
  subs := .listNew fun _ => none
  heapTop := 0
  freed := []
  publisher := .idle
  yielder := .idle

/-- `lock_list_pub` is taken. -/
def locked (race : Race) : Bool := .listPub ∈ race.client.held

/-! ## Publishing -/

/-- `_mask_push_pubInfo_to` in `uiot_mqtt_publish`. -/
def push (race : Race) (len : Nat) (msgId : UInt16) (env : RequestEnv) :
    Option Race := do
  match ← maskPushPubInfoNode race.toNodeClient len msgId env race.heapTop with
  | (s, .error _) => some { race with toNodeClient := s }
  | (s, .ok node) =>
      some { race with
        toNodeClient := s
        heapTop := race.heapTop + 1
        publisher := .sending node len }

/-- `send_mqtt_packet` in `uiot_mqtt_publish`. -/
def send (race : Race) (node len : Nat) (writes : List WriteOutcome) : Race :=
  match sendMqttPacket race.client len writes with
  | (client, .successRet) => { race with client, publisher := .idle }
  | (client, _) => { race with client, publisher := .failed node }

/-- `list_remove` of the node that was pushed. -/
def takeBack (race : Race) (node : Nat) : Option Race := do
  let s ← removePubNode race.toNodeClient node
  pure { race with
    toNodeClient := s
    freed := node :: race.freed
    publisher := .idle }

/-! ## Yielding -/

/-- `_mask_pubInfo_from` and `uiot_mqtt_pub_info_proc` up to their loops. -/
def walk (race : Race) (iteratorAllocated : Bool)
    (loop : ListIterator → Yielder) : Race :=
  let s := race.toNodeClient.lock .listPub
  if s.pubs.len = 0 then
    { race with toNodeClient := s.unlock .listPub }
  else if !iteratorAllocated then
    { race with toNodeClient := s.unlock .listPub }
  else
    { race with
      toNodeClient := s
      yielder := loop (s.pubs.listIteratorNew .tail) }

/-- A loop ends. -/
def leave (race : Race) : Race :=
  { race with
    toNodeClient := race.toNodeClient.unlock .listPub
    yielder := .idle }

/-- A turn of the loop of `_mask_pubInfo_from`. -/
def markTurn (race : Race) (iter : ListIterator) (msgId : UInt16) :
    Option Race := do
  match ← race.pubs.listIteratorNext iter with
  | (none, _) => some race.leave
  | (some node, iter) => do
      let cell ← race.pubs.nodes node
      let pubs ← race.pubs.setVal node (cell.val.map (UIoTPubInfo.mask msgId))
      pure { race with pubs, yielder := .marking iter msgId }

/-- The `list_remove` of `uiot_mqtt_pub_info_proc`, if it has a node to
remove. -/
def removeTemp (race : Race) : (tempNode : Option Nat) → Option Race
  | none => some race
  | some node => do
      let pubs ← race.pubs.listRemove node
      pure { race with pubs, freed := node :: race.freed }

/-- The checks of `uiot_mqtt_pub_info_proc` at a node. -/
def visit (race : Race) (iter : ListIterator) (node : Nat) :
    Option UIoTPubInfo → Race
  | none => { race with yielder := .sweeping iter (some node) }
  | some info =>
      if info.nodeState = .invalid then
        { race with yielder := .sweeping iter (some node) }
      else if !race.client.isConnected then
        { race with yielder := .sweeping iter none }
      else if info.pubStartTime.leftMs race.client.clock > 0 then
        { race with yielder := .sweeping iter none }
      else
        { race with
          toNodeClient := race.toNodeClient.unlock .listPub
          yielder := .expired iter node }

/-- A turn of the loop of `uiot_mqtt_pub_info_proc`, up to its `HAL_MutexUnlock`
if the node has expired. -/
def sweepTurn (race : Race) (iter : ListIterator) (tempNode : Option Nat) :
    Option Race := do
  let (node, iter) ← race.pubs.listIteratorNext iter
  let race ← race.removeTemp tempNode
  match node with
  | none => some race.leave
  | some node => do
      let cell ← race.pubs.nodes node
      pure (race.visit iter node cell.val)

/-- `countdown_ms` for an expired node, with the mutex released. -/
def restart (race : Race) (iter : ListIterator) (node : Nat) :
    Option Race := do
  let cell ← race.pubs.nodes node
  let pubs ← race.pubs.setVal node (cell.val.map fun info =>
    { info with
      pubStartTime :=
        .countdownMs race.client.clock race.client.commandTimeoutMs })
  pure { race with pubs, yielder := .restarted iter node }

/-- `HAL_MutexLock` and the event for an expired node. -/
def relock (race : Race) (iter : ListIterator) (node : Nat) :
    Option Race := do
  let s := race.toNodeClient.lock .listPub
  if s.client.eventHandler then
    let cell ← s.pubs.nodes node
    let client :=
      match cell.val with
      | none => s.client
      | some info => s.client.raise (.publishTimeout info.msgId)
    pure { race with
      toNodeClient := { s with client }
      yielder := .sweeping iter (some node) }
  else
    pure { race with
      toNodeClient := s
      yielder := .sweeping iter (some node) }

/-- The thread in `uiot_mqtt_yield` goes on. -/
def goOn (race : Race) : Option Race :=
  match race.yielder with
  | .idle => some race
  | .marking iter msgId => race.markTurn iter msgId
  | .sweeping iter tempNode => race.sweepTurn iter tempNode
  | .expired iter node => race.restart iter node
  | .restarted iter node => race.relock iter node

/-! ## Steps -/

/-- A step; a thread that is elsewhere or waits for the mutex stays where it
is.  There is no result where a pointer to a freed node is followed. -/
def act (race : Race) : RaceStep → Option Race
  | .push len msgId env =>
      match race.publisher with
      | .idle => if race.locked then some race else race.push len msgId env
      | _ => some race
  | .send writes =>
      match race.publisher with
      | .sending node len => some (race.send node len writes)
      | _ => some race
  | .takeBack =>
      match race.publisher with
      | .failed node =>
          if race.locked then some race else race.takeBack node
      | _ => some race
  | .acknowledge msgId iteratorAllocated =>
      match race.yielder with
      | .idle =>
          some (race.walk iteratorAllocated fun iter => .marking iter msgId)
      | _ => some race
  | .sweep iteratorAllocated =>
      match race.yielder with
      | .idle =>
          some (race.walk iteratorAllocated fun iter => .sweeping iter none)
      | _ => some race
  | .turn => race.goOn
  | .elapse time =>
      some { race with
        client := { race.client with clock := race.client.clock + time } }
  | .link isConnected =>
      some { race with client := { race.client with isConnected } }

/-- A step of a race that may have gone wrong. -/
def step (race : Option Race) (label : RaceStep) : Option Race :=
  race.bind fun race => race.act label

/-! ## What the threads point to -/

end Race

/-- The iterator of the loop and the node it is to remove. -/
def Yielder.cursor : Yielder → Option (ListIterator × Option Nat)
  | .idle => none
  | .marking iter _ => some (iter, none)
  | .sweeping iter tempNode => some (iter, tempNode)
  | .expired iter node => some (iter, some node)
  | .restarted iter node => some (iter, some node)

/-- The thread holds the mutex of the list. -/
def Yielder.locks : Yielder → Bool
  | .marking _ _ | .sweeping _ _ => true
  | _ => false

/-- The thread is at the node or goes on with it. -/
def Yielder.PointsTo (yielder : Yielder) (node : Nat) : Prop :=
  match yielder.cursor with
  | none => False
  | some (iter, tempNode) => iter.next = some node ∨ tempNode = some node

instance (yielder : Yielder) (node : Nat) : Decidable (yielder.PointsTo node) :=
  match h : yielder.cursor with
  | none => isFalse (by simp [Yielder.PointsTo, h])
  | some (iter, tempNode) =>
      decidable_of_iff (iter.next = some node ∨ tempNode = some node)
        (by simp [Yielder.PointsTo, h])

/-- The node the thread has pushed. -/
def Publisher.node : Publisher → Option Nat
  | .idle => none
  | .sending node _ => some node
  | .failed node => some node

/-- The iterator stands in front of a node that is to be removed, or between two
nodes. -/
def Between {α : Type} (entries : List (Nat × α)) (iter : ListIterator)
    (tempNode : Option Nat) : Prop :=
  ∃ (front : List (Nat × α)) (temp : Option (Nat × α))
    (kept : List (Nat × α)),
    entries = front ++ (temp.toList ++ kept) ∧
      iter = ⟨(front.map Prod.fst).getLast?, .tail⟩ ∧
      tempNode = temp.map Prod.fst

namespace Race

/-- Every node that was pushed is linked, or was removed and freed, and was so
once; the list counts the linked ones. -/
def Intact (race : Race) : Prop :=
  ∃ entries, race.pubs.Accounted race.freed race.heapTop entries

/-- No pointer to a removed node has been followed, and the nodes are
accounted for. -/
def Safe (race : Option Race) : Prop :=
  ∃ intact, race = some intact ∧ intact.Intact

/-- The node that the step takes back for the publisher. -/
def takenBack (race : Race) : RaceStep → Option Nat
  | .takeBack =>
      match race.publisher with
      | .failed node => if race.locked then none else some node
      | _ => none
  | _ => none

/-- If the step takes the publisher's node back, that node was not removed
before, and no sweep is at it or goes on with it. -/
def TakesBackOwn (race : Option Race) (label : RaceStep) : Prop :=
  ∀ current ∈ race, ∀ node ∈ current.takenBack label,
    node ∉ current.freed ∧ ¬current.yielder.PointsTo node

instance (race : Option Race) (label : RaceStep) :
    Decidable (TakesBackOwn race label) :=
  inferInstanceAs (Decidable (∀ current ∈ race,
    ∀ node ∈ current.takenBack label, _ ∧ _))

/-- What is always so: the nodes are accounted for, the mutex is held in the
loops, an iterator stands between linked nodes, and a pushed node was pushed. -/
structure Sound (race : Race) (entries : List (Nat × Option UIoTPubInfo)) :
    Prop where
  accounted : race.pubs.Accounted race.freed race.heapTop entries
  held : race.client.held = if race.yielder.locks then [.listPub] else []
  between : ∀ iter tempNode, race.yielder.cursor = some (iter, tempNode) →
    Between entries iter tempNode
  pushed : ∀ node, race.publisher.node = some node → node < race.heapTop

end Race

/-! ## Cursors -/

namespace Between

variable {α : Type} {entries : List (Nat × α)} {iter : ListIterator}
  {tempNode : Option Nat}

/-- A node that is pushed comes behind. -/
theorem append (between : Between entries iter tempNode)
    (entry : Nat × α) : Between (entries ++ [entry]) iter tempNode := by
  obtain ⟨front, temp, kept, rfl, next, same⟩ := between
  exact ⟨front, temp, kept ++ [entry], by simp, next, same⟩

/-- A node that is neither the one to be removed nor the next one can be taken
out. -/
theorem takeOut (between : Between entries iter tempNode) {node : Nat}
    (mem : node ∈ entries.map Prod.fst) (notNext : iter.next ≠ some node)
    (notTemp : tempNode ≠ some node) :
    ∃ pre val post, entries = pre ++ (node, val) :: post ∧
      Between (pre ++ post) iter tempNode := by
  obtain ⟨front, temp, kept, rfl, rfl, rfl⟩ := between
  obtain ⟨⟨_, val⟩, listed, rfl⟩ := List.mem_map.mp mem
  rcases List.mem_append.mp listed with inFront | behind
  · obtain ⟨first, second, rfl⟩ := List.append_of_mem inFront
    refine ⟨first, val, second ++ (temp.toList ++ kept), by simp,
      first ++ second, temp, kept, by simp, ?_, rfl⟩
    rcases List.eq_nil_or_concat second with rfl | ⟨rest, last, rfl⟩
    · exact absurd (by simp) notNext
    · simp [List.getLast?_cons]
  rcases List.mem_append.mp behind with isTemp | inKept
  · rw [Option.mem_toList] at isTemp
    exact absurd (congrArg (Option.map Prod.fst) isTemp) notTemp
  · obtain ⟨first, second, rfl⟩ := List.append_of_mem inKept
    exact ⟨front ++ (temp.toList ++ first), val, second, by simp,
      front, temp, first ++ second, by simp, rfl, rfl⟩

end Between

/-! ## Every step keeps the account -/

namespace Race

variable {race : Race} {entries : List (Nat × Option UIoTPubInfo)}

/-- The step has a result, whose nodes are accounted for. -/
def KeepsSound (after : Option Race) : Prop :=
  ∃ next entries, after = some next ∧ next.Sound entries

theorem Sound.keeps (sound : race.Sound entries) : KeepsSound (some race) :=
  ⟨race, entries, rfl, sound⟩

theorem Sound.push (sound : race.Sound entries) (len : Nat) (msgId : UInt16)
    (env : RequestEnv) : KeepsSound (race.push len msgId env) := by
  unfold Race.push
  rcases maskPushPubInfoNode_cases sound.accounted.consistent
    sound.accounted.nodes_heapTop len msgId env with
    ⟨ret, refused⟩ | ⟨-, pubs, info, -, -, pushed, consistent, done⟩
  · rw [refused]
    exact sound.keeps
  · rw [done]
    refine ⟨_, _, rfl, sound.accounted.listRpush pushed consistent, sound.held,
      fun iter tempNode points => ?_, fun node same => ?_⟩
    · exact (sound.between iter tempNode points).append _
    · obtain rfl := Option.some.inj same
      exact Nat.lt_succ_self _

theorem Sound.send {node len : Nat} (sound : race.Sound entries)
    (sending : race.publisher = .sending node len)
    (writes : List WriteOutcome) :
    (race.send node len writes).Sound entries := by
  have held := (sendMqttPacket_held race.client len writes).trans sound.held
  have pushed : node < race.heapTop := sound.pushed node (by rw [sending]; rfl)
  unfold Race.send
  split <;> rename_i sent <;> rw [sent] at held
  · exact ⟨sound.accounted, held, sound.between, fun _ same => nomatch same⟩
  · refine ⟨sound.accounted, held, sound.between, fun other same => ?_⟩
    obtain rfl := Option.some.inj same
    exact pushed

/-- The node can be taken out of the list and away from the iterator. -/
theorem Sound.takeOut {node : Nat} (sound : race.Sound entries)
    (mem : node ∈ entries.map Prod.fst)
    (apart : ¬race.yielder.PointsTo node) :
    ∃ pre val post, entries = pre ++ (node, val) :: post ∧
      ∀ iter tempNode, race.yielder.cursor = some (iter, tempNode) →
        Between (pre ++ post) iter tempNode := by
  cases points : race.yielder.cursor with
  | none =>
      obtain ⟨⟨_, val⟩, listed, rfl⟩ := List.mem_map.mp mem
      obtain ⟨pre, post, rfl⟩ := List.append_of_mem listed
      exact ⟨pre, val, post, rfl, fun _ _ same => nomatch same⟩
  | some cursor =>
      obtain ⟨iter, tempNode⟩ := cursor
      rw [Yielder.PointsTo, points] at apart
      obtain ⟨notNext, notTemp⟩ := not_or.mp apart
      obtain ⟨pre, val, post, whole, between⟩ :=
        (sound.between iter tempNode points).takeOut mem notNext notTemp
      refine ⟨pre, val, post, whole, fun _ _ same => ?_⟩
      obtain ⟨rfl, rfl⟩ := Prod.mk.inj (Option.some.inj same)
      exact between

theorem Sound.takeBack {node : Nat} (sound : race.Sound entries)
    (failed : race.publisher = .failed node) (kept : node ∉ race.freed)
    (apart : ¬race.yielder.PointsTo node) :
    KeepsSound (race.takeBack node) := by
  have pushed : node < race.heapTop := sound.pushed node (by rw [failed]; rfl)
  have mem := sound.accounted.mem_of_not_freed pushed kept
  obtain ⟨pre, val, post, rfl, between⟩ := sound.takeOut mem apart
  obtain ⟨pubs, removed, accounted⟩ := sound.accounted.listRemove
  unfold Race.takeBack
  rw [removePubNode_of_removed removed]
  exact ⟨_, _, rfl, accounted, sound.held, between, fun _ same => nomatch same⟩

theorem Sound.walk (sound : race.Sound entries)
    (idle : race.yielder = .idle) (iteratorAllocated : Bool)
    {loop : ListIterator → Yielder}
    (cursor : ∀ iter, (loop iter).cursor = some (iter, none))
    (locks : ∀ iter, (loop iter).locks = true) :
    (race.walk iteratorAllocated loop).Sound entries := by
  have free : race.client.held = [] := by
    rw [sound.held, idle]
    rfl
  unfold Race.walk
  dsimp only
  rw [NodeClient.unlock_lock]
  split
  · exact sound
  split
  · exact sound
  refine ⟨sound.accounted, ?_, fun iter tempNode points => ?_, sound.pushed⟩
  · rw [locks, if_pos rfl]
    exact congrArg (List.cons _) free
  · obtain ⟨rfl, rfl⟩ :=
      Prod.mk.inj (Option.some.inj ((cursor _).symm.trans points))
    exact ⟨entries, none, [], by simp, LinkedList.listIteratorNew_tail
      sound.accounted.consistent.holds, rfl⟩

/-- Behind the last turn of a loop. -/
theorem leave_sound
    (accounted : race.pubs.Accounted race.freed race.heapTop entries)
    (held : race.client.held = [.listPub])
    (pushed : ∀ node, race.publisher.node = some node → node < race.heapTop) :
    race.leave.Sound entries where
  accounted
  held := (congrArg (List.erase · Lock.listPub) held).trans
    (List.erase_cons_head ..)
  between := fun _ _ points => nomatch points
  pushed

theorem Sound.markTurn {iter : ListIterator} {msgId : UInt16}
    (sound : race.Sound entries)
    (marking : race.yielder = .marking iter msgId) :
    KeepsSound (race.markTurn iter msgId) := by
  have held : race.client.held = [.listPub] := by
    rw [sound.held, marking]
    rfl
  obtain ⟨front, temp, kept, rfl, rfl, noTemp⟩ :=
    sound.between iter none (by rw [marking]; rfl)
  obtain rfl := Option.map_eq_none_iff.mp noTemp.symm
  unfold Race.markTurn
  rcases List.eq_nil_or_concat' front with rfl | ⟨front, entry, rfl⟩
  · exact ⟨_, _, rfl, leave_sound sound.accounted held sound.pushed⟩
  have accounted : race.pubs.Accounted race.freed race.heapTop
      (front ++ entry :: kept) := by simpa using sound.accounted
  have last : ((front ++ [entry]).map Prod.fst).getLast? = some entry.1 := by
    simp
  have next := LinkedList.listIteratorNext_tail accounted.consistent.holds
  have cell := accounted.consistent.holds.cell
  obtain ⟨pubs, written, still⟩ :=
    accounted.setVal (entry.2.map (UIoTPubInfo.mask msgId))
  rw [last, next]
  simp only [Option.bind_eq_bind, Option.bind_some, cell, written]
  refine ⟨_, _, rfl, still, ?_, fun _ _ points => ?_, sound.pushed⟩
  · exact held
  · obtain ⟨rfl, rfl⟩ := Prod.mk.inj (Option.some.inj points)
    exact ⟨front, none, _, rfl, rfl, rfl⟩

/-- The node that is to be removed is removed and freed. -/
theorem removeTemp_accounted {front kept : List (Nat × Option UIoTPubInfo)}
    {temp : Option (Nat × Option UIoTPubInfo)}
    (accounted : race.pubs.Accounted race.freed race.heapTop
      (front ++ (temp.toList ++ kept))) :
    ∃ pubs freed,
      race.removeTemp (temp.map Prod.fst) = some { race with pubs, freed } ∧
        pubs.Accounted freed race.heapTop (front ++ kept) := by
  cases temp with
  | none => exact ⟨race.pubs, race.freed, rfl, accounted⟩
  | some entry =>
      obtain ⟨pubs, removed, still⟩ := accounted.listRemove
      refine ⟨pubs, entry.1 :: race.freed, ?_, still⟩
      change (race.pubs.listRemove entry.1).bind _ = _
      rw [removed]
      rfl

/-- Behind the checks at a node. -/
theorem visit_sound {front kept : List (Nat × Option UIoTPubInfo)}
    {entry : Nat × Option UIoTPubInfo}
    (accounted : race.pubs.Accounted race.freed race.heapTop
      (front ++ entry :: kept))
    (held : race.client.held = [.listPub])
    (pushed : ∀ node, race.publisher.node = some node → node < race.heapTop)
    (val : Option UIoTPubInfo) :
    (race.visit ⟨(front.map Prod.fst).getLast?, .tail⟩ entry.1 val).Sound
      (front ++ entry :: kept) := by
  have stays : ({ race with
      yielder := .sweeping ⟨(front.map Prod.fst).getLast?, .tail⟩
        none } : Race).Sound (front ++ entry :: kept) := by
    refine ⟨accounted, held, fun _ _ points => ?_, pushed⟩
    obtain ⟨rfl, rfl⟩ := Prod.mk.inj (Option.some.inj points)
    exact ⟨front, none, entry :: kept, rfl, rfl, rfl⟩
  have goes : ({ race with
      yielder := .sweeping ⟨(front.map Prod.fst).getLast?, .tail⟩
        (some entry.1) } : Race).Sound (front ++ entry :: kept) := by
    refine ⟨accounted, held, fun _ _ points => ?_, pushed⟩
    obtain ⟨rfl, rfl⟩ := Prod.mk.inj (Option.some.inj points)
    exact ⟨front, some entry, kept, rfl, rfl, rfl⟩
  cases val with
  | none => exact goes
  | some info =>
      unfold visit
      dsimp only
      split
      · exact goes
      split
      · exact stays
      split
      · exact stays
      refine ⟨accounted, ?_, fun _ _ points => ?_, pushed⟩
      · exact (congrArg (List.erase · Lock.listPub) held).trans
          (List.erase_cons_head ..)
      · obtain ⟨rfl, rfl⟩ := Prod.mk.inj (Option.some.inj points)
        exact ⟨front, some entry, kept, rfl, rfl, rfl⟩

theorem Sound.sweepTurn {iter : ListIterator} {tempNode : Option Nat}
    (sound : race.Sound entries)
    (sweeping : race.yielder = .sweeping iter tempNode) :
    KeepsSound (race.sweepTurn iter tempNode) := by
  have held : race.client.held = [.listPub] := by
    rw [sound.held, sweeping]
    rfl
  obtain ⟨front, temp, kept, rfl, rfl, rfl⟩ :=
    sound.between iter tempNode (by rw [sweeping]; rfl)
  obtain ⟨pubs, freed, removed, still⟩ := removeTemp_accounted sound.accounted
  unfold Race.sweepTurn
  rcases List.eq_nil_or_concat' front with rfl | ⟨front, entry, rfl⟩
  · have next : race.pubs.listIteratorNext
        ⟨(([] : List (Nat × Option UIoTPubInfo)).map Prod.fst).getLast?,
          .tail⟩ = some (none, ⟨none, .tail⟩) := rfl
    simp only [next, removed, Option.bind_eq_bind, Option.bind_some]
    exact ⟨_, _, rfl, leave_sound still held sound.pushed⟩
  have whole : race.pubs.Accounted race.freed race.heapTop
      (front ++ entry :: (temp.toList ++ kept)) := by
    simpa using sound.accounted
  have still : pubs.Accounted freed race.heapTop (front ++ entry :: kept) := by
    simpa using still
  have last : ((front ++ [entry]).map Prod.fst).getLast? = some entry.1 := by
    simp
  have next := LinkedList.listIteratorNext_tail whole.consistent.holds
  have cell := still.consistent.holds.cell
  rw [last]
  simp only [next, removed, cell, Option.bind_eq_bind, Option.bind_some]
  let swept : Race := { race with pubs, freed }
  have still : swept.pubs.Accounted swept.freed swept.heapTop
      (front ++ entry :: kept) := still
  have held : swept.client.held = [.listPub] := held
  have pushed : ∀ node, swept.publisher.node = some node →
      node < swept.heapTop := sound.pushed
  exact (visit_sound still held pushed entry.2).keeps

theorem Sound.restart {iter : ListIterator} {node : Nat}
    (sound : race.Sound entries)
    (expired : race.yielder = .expired iter node) :
    KeepsSound (race.restart iter node) := by
  have held : race.client.held = [] := by
    rw [sound.held, expired]
    rfl
  obtain ⟨front, temp, kept, rfl, rfl, isTemp⟩ :=
    sound.between iter (some node) (by rw [expired]; rfl)
  obtain ⟨entry, rfl, rfl⟩ := Option.map_eq_some_iff.mp isTemp.symm
  have accounted : race.pubs.Accounted race.freed race.heapTop
      (front ++ entry :: kept) := sound.accounted
  have cell := accounted.consistent.holds.cell
  obtain ⟨pubs, written, still⟩ := accounted.setVal (entry.2.map fun info =>
    { info with
      pubStartTime :=
        .countdownMs race.client.clock race.client.commandTimeoutMs })
  unfold Race.restart
  simp only [cell, written, Option.bind_eq_bind, Option.bind_some]
  refine ⟨_, _, rfl, still, held, fun _ _ points => ?_, sound.pushed⟩
  obtain ⟨rfl, rfl⟩ := Prod.mk.inj (Option.some.inj points)
  exact ⟨front, some (entry.1, _), kept, rfl, rfl, rfl⟩

theorem Sound.relock {iter : ListIterator} {node : Nat}
    (sound : race.Sound entries)
    (restarted : race.yielder = .restarted iter node) :
    KeepsSound (race.relock iter node) := by
  have held : (race.toNodeClient.lock .listPub).client.held = [.listPub] := by
    change Lock.listPub :: race.client.held = _
    rw [sound.held, restarted]
    rfl
  have between := sound.between iter (some node) (by rw [restarted]; rfl)
  have goesOn : ∀ client : Client, client.held = [.listPub] →
      ({ race with
        client, yielder := .sweeping iter (some node) } : Race).Sound
          entries := by
    intro client held
    refine ⟨sound.accounted, held, fun _ _ points => ?_, sound.pushed⟩
    obtain ⟨rfl, rfl⟩ := Prod.mk.inj (Option.some.inj points)
    exact between
  obtain ⟨front, temp, kept, rfl, -, isTemp⟩ := between
  obtain ⟨entry, rfl, rfl⟩ := Option.map_eq_some_iff.mp isTemp.symm
  have accounted : race.pubs.Accounted race.freed race.heapTop
      (front ++ entry :: kept) := sound.accounted
  have cell : (race.toNodeClient.lock .listPub).pubs.nodes entry.1 = _ :=
    accounted.consistent.holds.cell
  unfold Race.relock
  dsimp only
  split
  · simp only [cell, Option.bind_eq_bind, Option.bind_some]
    cases entry.2 with
    | none => exact ⟨_, _, rfl, goesOn _ held⟩
    | some info => exact ⟨_, _, rfl, goesOn _ held⟩
  · exact ⟨_, _, rfl, goesOn _ held⟩

theorem Sound.goOn (sound : race.Sound entries) : KeepsSound race.goOn := by
  unfold Race.goOn
  cases yielder : race.yielder with
  | idle => exact sound.keeps
  | marking iter msgId => exact sound.markTurn yielder
  | sweeping iter tempNode => exact sound.sweepTurn yielder
  | expired iter node => exact sound.restart yielder
  | restarted iter node => exact sound.relock yielder

/-- A step that takes back no node but the publisher's own keeps the account. -/
theorem Sound.act (sound : race.Sound entries) {label : RaceStep}
    (own : TakesBackOwn (some race) label) : KeepsSound (race.act label) := by
  cases label with
  | push len msgId env =>
      unfold Race.act
      dsimp only
      split
      · split
        · exact sound.keeps
        · exact sound.push len msgId env
      · exact sound.keeps
  | send writes =>
      unfold Race.act
      dsimp only
      split
      · rename_i node len sending
        exact (sound.send sending writes).keeps
      · exact sound.keeps
  | takeBack =>
      unfold Race.act
      dsimp only
      split
      · rename_i node failed
        split
        · exact sound.keeps
        · rename_i free
          have taken : race.takenBack .takeBack = some node := by
            simp [takenBack, failed, free]
          obtain ⟨kept, apart⟩ := own race rfl node taken
          exact sound.takeBack failed kept apart
      · exact sound.keeps
  | acknowledge msgId iteratorAllocated =>
      unfold Race.act
      dsimp only
      split
      · rename_i idle
        exact (sound.walk idle iteratorAllocated (fun _ => rfl)
          fun _ => rfl).keeps
      · exact sound.keeps
  | sweep iteratorAllocated =>
      unfold Race.act
      dsimp only
      split
      · rename_i idle
        exact (sound.walk idle iteratorAllocated (fun _ => rfl)
          fun _ => rfl).keeps
      · exact sound.keeps
  | turn => exact sound.goOn
  | elapse time =>
      exact ⟨_, entries, rfl, sound.accounted, sound.held, sound.between,
        sound.pushed⟩
  | link isConnected =>
      exact ⟨_, entries, rfl, sound.accounted, sound.held, sound.between,
        sound.pushed⟩

/-- Nothing was pushed yet. -/
theorem start_sound (params : MQTTInitParams) (clock : Nat) :
    (start params clock).Sound [] where
  accounted := .listNew
  held := rfl
  between := fun _ _ points => nomatch points
  pushed := fun _ same => nomatch same

/-! ## Where the account is lost -/

/-- The thread in `uiot_mqtt_yield` points to a node that was freed. -/
def Lost (race : Race) : Prop :=
  ∃ node, race.yielder.PointsTo node ∧ race.pubs.nodes node = none

/-- There is no result, or the pointer is still there in the loop. -/
def LostBefore (yielder : Yielder) (after : Option Race) : Prop :=
  after = none ∨ ∃ next, after = some next ∧ next.yielder = yielder ∧ next.Lost

theorem listIteratorNext_freed {iter : ListIterator} {node : Nat}
    (next : iter.next = some node) (gone : race.pubs.nodes node = none) :
    race.pubs.listIteratorNext iter = none := by
  unfold LinkedList.listIteratorNext
  rw [next]
  dsimp only
  rw [gone]
  rfl

theorem listRemove_freed {node : Nat} (gone : race.pubs.nodes node = none) :
    race.pubs.listRemove node = none := by
  unfold LinkedList.listRemove
  rw [gone]
  rfl

theorem Lost.sweepTurn {iter : ListIterator} {tempNode : Option Nat}
    (lost : race.Lost) (sweeping : race.yielder = .sweeping iter tempNode) :
    race.sweepTurn iter tempNode = none := by
  obtain ⟨node, points, gone⟩ := lost
  rw [sweeping] at points
  unfold Race.sweepTurn
  rcases points with next | isTemp
  · rw [listIteratorNext_freed next gone]
    rfl
  · obtain rfl : tempNode = some node := isTemp
    cases race.pubs.listIteratorNext iter with
    | none => rfl
    | some _ =>
        have removed := listRemove_freed gone
        simp only [removeTemp, removed, Option.bind_eq_bind, Option.bind_some,
          Option.bind_none]

theorem Lost.relock {iter : ListIterator} {node : Nat} (lost : race.Lost)
    (restarted : race.yielder = .restarted iter node) :
    LostBefore (.sweeping iter (some node)) (race.relock iter node) := by
  obtain ⟨other, points, gone⟩ := lost
  rw [restarted] at points
  unfold Race.relock
  dsimp only
  split
  · cases (race.toNodeClient.lock .listPub).pubs.nodes node with
    | none => exact .inl rfl
    | some cell => exact .inr ⟨_, rfl, rfl, other, points, gone⟩
  · exact .inr ⟨_, rfl, rfl, other, points, gone⟩

theorem Lost.restart {iter : ListIterator} {node : Nat} (lost : race.Lost)
    (expired : race.yielder = .expired iter node) :
    LostBefore (.restarted iter node) (race.restart iter node) := by
  obtain ⟨other, points, gone⟩ := lost
  rw [expired] at points
  unfold Race.restart
  cases race.pubs.nodes node with
  | none => exact .inl rfl
  | some cell =>
      simp only [Option.bind_eq_bind, Option.bind_some]
      cases written : race.pubs.setVal node (cell.val.map fun info =>
          { info with
            pubStartTime :=
              .countdownMs race.client.clock race.client.commandTimeoutMs })
        with
      | none => exact .inl rfl
      | some pubs =>
          refine .inr ⟨_, rfl, rfl, other, points, ?_⟩
          have heap := LinkedList.setVal_sameHeap written other
          rw [gone] at heap
          exact Option.not_isSome_iff_eq_none.mp (by simp [heap])

theorem Lost.of_sweeping {iter : ListIterator} {tempNode : Option Nat}
    (lost : race.Lost) (sweeping : race.yielder = .sweeping iter tempNode) :
    step (some race) .turn = none := by
  change race.goOn = none
  unfold goOn
  rw [sweeping]
  exact lost.sweepTurn sweeping

theorem Lost.of_restarted {iter : ListIterator} {node : Nat}
    (lost : race.Lost) (restarted : race.yielder = .restarted iter node) :
    step (step (some race) .turn) .turn = none := by
  have turned : step (some race) .turn = race.relock iter node := by
    change race.goOn = _
    unfold goOn
    rw [restarted]
  rw [turned]
  rcases lost.relock restarted with none | ⟨next, some, sweeping, still⟩
  · rw [none]
    rfl
  · rw [some]
    exact still.of_sweeping sweeping

/-- A sweep that points to a freed node follows that pointer. -/
theorem Lost.turns (lost : race.Lost) (free : race.yielder.locks = false) :
    Machine.run step (some race) (List.replicate 3 .turn) = none := by
  change step (step (step (some race) .turn) .turn) .turn = none
  cases yielder : race.yielder with
  | idle =>
      obtain ⟨node, points, -⟩ := lost
      rw [yielder] at points
      exact absurd points id
  | marking iter msgId =>
      rw [yielder] at free
      cases free
  | sweeping iter tempNode =>
      rw [yielder] at free
      cases free
  | expired iter node =>
      have turned : step (some race) .turn = race.restart iter node := by
        change race.goOn = _
        unfold goOn
        rw [yielder]
      rw [turned]
      rcases lost.restart yielder with none | ⟨next, some, restarted, still⟩
      · rw [none]
        rfl
      · rw [some]
        exact still.of_restarted restarted
  | restarted iter node =>
      rw [lost.of_restarted yielder]
      rfl

theorem Sound.locked_eq (sound : race.Sound entries) :
    race.locked = race.yielder.locks := by
  unfold locked
  rw [sound.held]
  cases race.yielder.locks <;> rfl

theorem takenBack_eq_some {label : RaceStep} {node : Nat}
    (taken : race.takenBack label = some node) :
    label = .takeBack ∧ race.publisher = .failed node ∧
      race.locked = false := by
  unfold takenBack at taken
  split at taken
  · split at taken
    · rename_i other failed
      split at taken
      · cases taken
      · rename_i free
        obtain rfl := Option.some.inj taken
        exact ⟨rfl, failed, Bool.not_eq_true _ ▸ free⟩
    · cases taken
  · cases taken

/-- If a step takes back another node than the publisher's own, a pointer to a
freed node is followed before the sweep ends. -/
theorem Sound.foreign (sound : race.Sound entries) {label : RaceStep}
    (foreign : ¬TakesBackOwn (some race) label) :
    Machine.run step (some race) (label :: List.replicate 3 .turn) = none := by
  have taken : ∃ node, race.takenBack label = some node ∧
      (node ∉ race.freed → race.yielder.PointsTo node) := by
    by_contra none
    refine foreign ?_
    rintro _ ⟨⟩ node taken
    exact Classical.not_imp.mp fun points => none ⟨node, taken, points⟩
  obtain ⟨node, taken, points⟩ := taken
  obtain ⟨rfl, failed, free⟩ := takenBack_eq_some taken
  have acts : step (some race) .takeBack = race.takeBack node := by
    change race.act .takeBack = _
    unfold Race.act
    simp only [failed, free]
    rfl
  rw [Machine.run_cons, acts]
  by_cases gone : node ∈ race.freed
  · have refused : race.takeBack node = none := by
      have nothing := listRemove_freed (sound.accounted.nodes_of_freed gone)
      change (Option.bind (race.pubs.listRemove node) _).bind _ = _
      rw [nothing]
      rfl
    rw [refused]
    rfl
  have pushed : node < race.heapTop := sound.pushed node (by rw [failed]; rfl)
  have mem := sound.accounted.mem_of_not_freed pushed gone
  obtain ⟨entry, listed, same⟩ := List.mem_map.mp mem
  obtain ⟨pre, post, rfl⟩ := List.append_of_mem listed
  obtain ⟨pubs, removed, -⟩ := sound.accounted.listRemove
  rw [same] at removed
  have unlinked : pubs.nodes node = none := Option.not_isSome_iff_eq_none.mp
    fun still => ((LinkedList.listRemove_isSome removed node).mp still).1 rfl
  let after : Race :=
    { race with pubs, freed := node :: race.freed, publisher := .idle }
  have done : race.takeBack node = some after := by
    unfold Race.takeBack
    rw [removePubNode_of_removed removed]
    rfl
  have lost : after.Lost := ⟨node, points gone, unlinked⟩
  rw [done]
  exact lost.turns (sound.locked_eq.symm.trans free)

/-! ## Runs -/

/-- The yielding thread takes nothing back. -/
theorem along_turns (race : Option Race) (turns : Nat) :
    Machine.Along step TakesBackOwn race (List.replicate turns .turn) := by
  induction turns generalizing race with
  | zero => trivial
  | succ turns inductionHypothesis =>
      exact ⟨fun _ _ _ taken => (nomatch taken), inductionHypothesis _⟩

theorem Sound.safe_of_along (sound : race.Sound entries)
    {labels : List RaceStep}
    (own : Machine.Along step TakesBackOwn (some race) labels) :
    Safe (Machine.run step (some race) labels) := by
  obtain ⟨intact, entries, still, sound⟩ := own.run_preserves KeepsSound
    (fun race label sound own => by
      obtain ⟨current, entries, rfl, sound⟩ := sound
      exact sound.act own)
    sound.keeps
  exact ⟨intact, still, entries, sound.accounted⟩

theorem Sound.along_of_safe (sound : race.Sound entries)
    {labels : List RaceStep}
    (safe : ∀ front, front <+: labels → ∀ turns,
      Safe (Machine.run step (some race)
        (front ++ List.replicate turns .turn))) :
    Machine.Along step TakesBackOwn (some race) labels := by
  induction labels generalizing race entries with
  | nil => trivial
  | cons label labels inductionHypothesis =>
      have own : TakesBackOwn (some race) label := by
        by_contra foreign
        obtain ⟨intact, still, -⟩ := safe [label]
          (List.cons_prefix_cons.mpr ⟨rfl, List.nil_prefix⟩) 3
        exact nomatch (sound.foreign foreign).symm.trans still
      obtain ⟨next, entries, done, sound⟩ := sound.act own
      have stepped : step (some race) label = some next := done
      refine ⟨own, ?_⟩
      rw [stepped]
      refine inductionHypothesis sound fun front isFront turns => ?_
      have after := safe (label :: front)
        (List.cons_prefix_cons.mpr ⟨rfl, isFront⟩) turns
      rw [List.cons_append, Machine.run_cons, stepped] at after
      exact after

/-- In every state of a run, and however the yielding thread then goes on, every
node was removed and freed at most once, the list counts its nodes and no
pointer to a removed one was followed, if and only if every node the publisher
takes back is still its own and none that the sweep needs. -/
theorem race_safe_iff (params : MQTTInitParams) (clock : Nat)
    (labels : List RaceStep) :
    (∀ front, front <+: labels → ∀ turns,
      Safe (Machine.run step (some (start params clock))
        (front ++ List.replicate turns .turn))) ↔
      Machine.Along step TakesBackOwn (some (start params clock)) labels := by
  have sound := start_sound params clock
  refine ⟨sound.along_of_safe, ?_⟩
  rintro own front ⟨rest, rfl⟩ turns
  apply sound.safe_of_along
  rw [Machine.Along.append_iff]
  exact ⟨((Machine.Along.append_iff _ front rest).mp own).1,
    along_turns _ turns⟩

/-- Room for a node, and a send that times out. -/
def unsent : RequestEnv := ⟨true, true, true, [], .qos0⟩

/-- A publish whose node expires before sending has failed removes it once
more. -/
theorem expiredUnsent_freedTwice :
    ¬∀ (params : MQTTInitParams) (clock : Nat) (labels : List RaceStep),
      Safe (Machine.run step (some (start params clock)) labels) := by
  intro all
  obtain ⟨intact, still, -⟩ := all ⟨2000, true⟩ 0
    [.link true, .push 10 1 unsent, .elapse 2000000, .sweep true, .turn, .turn,
      .turn, .turn, .send [], .takeBack]
  have gone : (Machine.run step (some (start ⟨2000, true⟩ 0))
      [.link true, .push 10 1 unsent, .elapse 2000000, .sweep true, .turn,
        .turn, .turn, .turn, .send [], .takeBack]).isNone = true := by
    decide +kernel
  rw [still] at gone
  cases gone

end Race

end Mqtt
end UIoT
