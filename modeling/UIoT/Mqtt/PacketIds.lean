import UIoT.Mqtt.Runs

/-!
# Packet identifiers

Identifiers are handed out in turn, without a look at the requests that still
wait.  The waiting requests carry different identifiers as long as no request
is given one that is still waited for.
-/

namespace UIoT
namespace Mqtt

/-! ## The counter -/

/-- Zero is never handed out. -/
theorem nextId_ne_zero (id : UInt16) : nextId id ≠ 0 := by
  unfold nextId
  split
  · decide
  · rename_i notLast
    intro zero
    apply notLast
    have : id = 0 - 1 := by rw [← zero]; simp
    rw [this]
    decide

/-- The identifiers count up to 65535 and start again at 1. -/
theorem toNat_nextId {id : UInt16} (nonzero : id ≠ 0) :
    (nextId id).toNat = id.toNat % 65535 + 1 := by
  have positive : 0 < id.toNat :=
    Nat.pos_of_ne_zero fun zero => nonzero (UInt16.toNat_inj.mp zero)
  have bounded := id.toNat_lt
  unfold nextId
  split
  · rename_i atLast
    rw [atLast]
    rfl
  · rename_i notLast
    have below : id.toNat ≠ 65535 := fun equal =>
      notLast (UInt16.toNat_inj.mp equal)
    rw [UInt16.toNat_add]
    change (id.toNat + 1) % 65536 = _
    omega

/-- The identifier handed out so many requests later. -/
theorem toNat_iterate_nextId {id : UInt16} (nonzero : id ≠ 0) (count : Nat) :
    (nextId^[count] id).toNat = (id.toNat - 1 + count) % 65535 + 1 := by
  have positive : 0 < id.toNat :=
    Nat.pos_of_ne_zero fun zero => nonzero (UInt16.toNat_inj.mp zero)
  have bounded := id.toNat_lt
  induction count with
  | zero =>
      rw [Function.iterate_zero_apply, Nat.add_zero, Nat.mod_eq_of_lt (by omega)]
      omega
  | succ count inductionHypothesis =>
      have later : nextId^[count] id ≠ 0 := by
        intro zero
        rw [zero] at inductionHypothesis
        exact Nat.succ_ne_zero _ inductionHypothesis.symm
      rw [Function.iterate_succ_apply', toNat_nextId later, inductionHypothesis]
      omega

/-! ## Waiting requests -/

/-- The node waits for its acknowledgement. -/
def UIoTPubInfo.waits (info : UIoTPubInfo) : Bool := info.nodeState = .normal

/-- The node waits for its acknowledgement. -/
def UIoTSubInfo.waits (info : UIoTSubInfo) : Bool := info.nodeState = .normal

namespace Books

/-- The identifiers of the requests that wait, on both lists. -/
def pendingIds (b : Books) : List UInt16 :=
  (b.listPubWaitAck.filter UIoTPubInfo.waits).map UIoTPubInfo.msgId ++
    (b.listSubWaitAck.filter UIoTSubInfo.waits).map UIoTSubInfo.msgId

/-- The requests that wait carry valid identifiers, each its own. -/
def IdsDistinct (b : Books) : Prop :=
  (∀ id ∈ b.pendingIds, 1 ≤ id.toNat ∧ id.toNat ≤ 65535) ∧ b.pendingIds.Nodup

/-- Dropping requests keeps the identifiers distinct. -/
theorem IdsDistinct.sublist {b after : Books} (distinct : b.IdsDistinct)
    (fewer : after.pendingIds.Sublist b.pendingIds) : after.IdsDistinct :=
  ⟨fun id mem => distinct.1 id (fewer.subset mem), distinct.2.sublist fewer⟩

/-- With one more identifier they are distinct if it is a new one. -/
theorem idsDistinct_iff_of_perm {b after : Books} {id : UInt16}
    (distinct : b.IdsDistinct) (nonzero : id ≠ 0)
    (added : after.pendingIds.Perm (id :: b.pendingIds)) :
    after.IdsDistinct ↔ id ∉ b.pendingIds := by
  unfold IdsDistinct
  rw [added.nodup_iff, List.nodup_cons, and_iff_left distinct.2]
  refine and_iff_right ?_
  intro other mem
  rcases List.mem_cons.mp (added.subset mem) with rfl | mem
  · have positive : 0 < other.toNat :=
      Nat.pos_of_ne_zero fun zero => nonzero (UInt16.toNat_inj.mp zero)
    have bounded := other.toNat_lt
    omega
  · exact distinct.1 other mem

/-- A new publish adds its identifier. -/
theorem TracksPublish.pendingIds {b after : Books} {info : UIoTPubInfo}
    (tracks : b.TracksPublish after info) :
    after.pendingIds.Perm (nextId b.nextPacketId :: b.pendingIds) := by
  have waits : info.waits = true := by
    simp [UIoTPubInfo.waits, tracks.nodeState]
  unfold Books.pendingIds
  rw [tracks.listPubWaitAck, tracks.listSubWaitAck, List.filter_append,
    List.map_append, List.filter_singleton, waits, ← tracks.msgId,
    List.append_assoc]
  exact List.perm_middle

/-- A new request with a filter adds its identifier. -/
theorem TracksRequest.pendingIds {b after : Books} {info : UIoTSubInfo}
    (tracks : b.TracksRequest after info) :
    after.pendingIds.Perm (nextId b.nextPacketId :: b.pendingIds) := by
  have waits : info.waits = true := by
    simp [UIoTSubInfo.waits, tracks.nodeState]
  unfold Books.pendingIds
  rw [tracks.listPubWaitAck, tracks.listSubWaitAck, List.filter_append,
    List.map_append, List.filter_singleton, waits, ← tracks.msgId,
    ← List.append_assoc]
  exact List.perm_append_singleton ..

end Books

/-- Marking the nodes that carry an identifier leaves the others waiting. -/
theorem filter_map_mask {Info : Type} {waits carries : Info → Bool}
    {mask : Info → Info}
    (marked : ∀ info, carries info = true → waits (mask info) = false)
    (kept : ∀ info, carries info = false → mask info = info)
    (infos : List Info) :
    (infos.map mask).filter waits =
      (infos.filter waits).filter fun info => !carries info := by
  induction infos with
  | nil => rfl
  | cons info infos inductionHypothesis =>
      rw [List.map_cons, List.filter_cons, List.filter_cons,
        inductionHypothesis]
      cases carried : carries info with
      | true =>
          rw [marked info carried]
          cases waits info <;> simp [carried]
      | false =>
          rw [kept info carried]
          cases waits info <;> simp [carried]

/-- The publish nodes that wait once those with an identifier are marked. -/
theorem UIoTPubInfo.filter_waits_mask (packetId : UInt16)
    (infos : List UIoTPubInfo) :
    (infos.map (mask packetId)).filter waits =
      (infos.filter waits).filter fun info => !(info.msgId == packetId) := by
  apply filter_map_mask
  · intro info carries
    rw [mask, if_pos (eq_of_beq carries)]
    rfl
  · intro info others
    exact if_neg (ne_of_beq_false others)

/-- The subscribe nodes that wait once those with an identifier are marked. -/
theorem UIoTSubInfo.filter_waits_mask (packetId : UInt16)
    (infos : List UIoTSubInfo) :
    (infos.map (mask packetId)).filter waits =
      (infos.filter waits).filter fun info => !(info.msgId == packetId) := by
  apply filter_map_mask
  · intro info carries
    rw [mask, if_pos (eq_of_beq carries)]
    rfl
  · intro info others
    exact if_neg (ne_of_beq_false others)

namespace Books

/-- An acknowledgement adds no request. -/
theorem Receives.pendingIds {b after : Books} {env : CycleEnv}
    {received : Received} (receives : b.Receives after env received) :
    after.pendingIds.Sublist b.pendingIds := by
  have masked : ∀ packetId, (b.maskSub packetId
      env.iteratorAllocated).pendingIds.Sublist b.pendingIds := by
    intro packetId
    rw [maskSub_frame]
    cases env.iteratorAllocated with
    | false => exact .refl _
    | true =>
        unfold Books.pendingIds
        rw [if_pos rfl, UIoTSubInfo.filter_waits_mask]
        exact (List.filter_sublist.map _).append_left _
  cases received with
  | puback packetId =>
      rw [show after = _ from receives]
      cases env.iteratorAllocated with
      | false => exact .refl _
      | true =>
          unfold Books.pendingIds
          rw [puback, raise_listPubWaitAck, raise_listSubWaitAck, if_pos rfl,
            UIoTPubInfo.filter_waits_mask]
          exact (List.filter_sublist.map _).append_right _
  | suback packet =>
      rw [show after = _ from receives]
      obtain ⟨_, _, _, installed⟩ := install_frame
        (b.maskSub packet.packetId env.iteratorAllocated) packet.packetId
        (b.maskedHandler packet.packetId .zero env.iteratorAllocated)
        (subNack packet)
      rw [suback, installed]
      exact masked packet.packetId
  | unsuback packetId =>
      rw [show after = _ from receives]
      exact masked packetId
  | other =>
      obtain ⟨_, rfl, -⟩ := receives
      exact .refl _

/-- The step is not about to hand out an identifier that is waited for. -/
def Fresh (c : Client) (op : Op) : Prop :=
  op.Tracked c → nextId c.nextPacketId ∉ c.books.pendingIds

/-- A step keeps the identifiers distinct exactly when it hands out a new
one. -/
theorem Effect.idsDistinct_iff {c : Client} {op : Op} {after : Books}
    (effect : Effect c op after) (ordered : c.books.HeapOrdered)
    (distinct : c.books.IdsDistinct) :
    after.IdsDistinct ↔ Fresh c op := by
  have nonzero := nextId_ne_zero c.nextPacketId
  have added : op.Tracked c →
      after.pendingIds.Perm (nextId c.nextPacketId :: c.books.pendingIds) →
      (after.IdsDistinct ↔ Fresh c op) := by
    intro tracked perm
    rw [idsDistinct_iff_of_perm distinct nonzero perm, Fresh,
      forall_prop_of_true tracked]
  have dropped : ¬op.Tracked c →
      after.pendingIds.Sublist c.books.pendingIds →
      (after.IdsDistinct ↔ Fresh c op) := by
    intro untracked fewer
    exact iff_of_true (distinct.sublist fewer) fun tracked =>
      absurd tracked untracked
  cases effect with
  | publish tracked tracks => exact added tracked tracks.pendingIds
  | subscribe tracked tracks _ => exact added tracked tracks.pendingIds
  | unsubscribe tracked tracks => exact added tracked tracks.pendingIds
  | untracked untracked nothing =>
      apply dropped untracked
      unfold Books.pendingIds
      rw [nothing.listPubWaitAck ordered, nothing.listSubWaitAck ordered]
  | cycle receives => exact dropped id receives.pendingIds
  | sweepPub =>
      exact dropped id
        ((((List.filter_sublist).filter _).map _).append_right _)
  | sweepSub =>
      exact dropped id
        ((((List.filter_sublist).filter _).map _).append_left _)
  | kept untracked kept =>
      obtain ⟨_, rfl, -⟩ := kept
      exact dropped untracked (.refl _)

end Books

/-- In all states of a run the requests that wait carry different identifiers,
valid ones, if and only if no step of the run puts a request on a waiting list
under an identifier that a request still waits for. -/
theorem run_idsDistinct_iff (params : MQTTInitParams) (clock : Nat)
    (labels : List Op) :
    (∀ front, front <+: labels →
      (Machine.run Client.step (uiotMqttInit params clock)
        front).books.IdsDistinct) ↔
      Machine.Along Client.step Books.Fresh (uiotMqttInit params clock)
        labels := by
  rw [Machine.Along.forall_prefix_iff fun c : Client => c.books.IdsDistinct,
    and_iff_right ⟨by simp [Books.pendingIds, uiotMqttInit, Client.books],
      by simp [Books.pendingIds, uiotMqttInit, Client.books]⟩]
  apply Machine.Along.iff_of_invariant
    fun c : Client => c.books.HeapOrdered ∧ c.books.IdsDistinct
  · rintro c op ⟨ordered, distinct⟩
    exact (c.step_effect op ordered).idsDistinct_iff ordered distinct
  · rintro c op ⟨ordered, -⟩ distinct
    exact ⟨c.step_heapOrdered op ordered, distinct⟩
  · exact ⟨uiotMqttInit_heapOrdered params clock,
      by simp [Books.pendingIds, uiotMqttInit, Client.books],
      by simp [Books.pendingIds, uiotMqttInit, Client.books]⟩

/-- A publish without a payload, which is refused once it has taken an
identifier. -/
def emptyPublish : Op := .publish textA ⟨.qos1, 0, 0, none⟩ unhindered

/-- A publish without a payload only takes an identifier. -/
theorem step_emptyPublish {c : Client} (online : c.isConnected = true) :
    c.step emptyPublish =
      { c with nextPacketId := nextId c.nextPacketId } := by
  have argument : textA.bytes ≠ [] ∧
      ¬textA.bytes.length > maxSizeOfCloudTopic := by decide
  simp [Client.step, emptyPublish, uiotMqttPublish, argument, online,
    publishChecked, getNextPacketId, serializePublishPacket]

/-- So do any number of them. -/
theorem run_emptyPublish (c : Client) (online : c.isConnected = true)
    (count : Nat) :
    Machine.run Client.step c (List.replicate count emptyPublish) =
      { c with nextPacketId := nextId^[count] c.nextPacketId } := by
  induction count generalizing c with
  | zero => rfl
  | succ count inductionHypothesis =>
      rw [List.replicate_succ, Machine.run_cons, step_emptyPublish online]
      exact inductionHypothesis
        { c with nextPacketId := nextId c.nextPacketId } online

/-- The steps that connect and subscribe to `"a"`. -/
def subscribing : List Op :=
  connecting ++ [.subscribe textA ⟨.qos1, some 1, 0⟩ unhindered]

/-- A subscription waits while 65534 publishes are refused; the subscription
behind them gets its identifier. -/
theorem run_idsCollide :
    ¬∀ labels, (Machine.run Client.step (uiotMqttInit ⟨2000, true⟩ 0)
      labels).books.IdsDistinct := by
  intro distinct
  let waiting := Machine.run Client.step (uiotMqttInit ⟨2000, true⟩ 0)
    subscribing
  have online : waiting.isConnected = true := by decide
  have around : nextId^[65534] waiting.nextPacketId = 1 := by
    have start : waiting.nextPacketId = 2 := by decide
    rw [start, ← UInt16.toNat_inj, toNat_iterate_nextId (by decide)]
    decide
  have collides := (distinct (subscribing ++
    (List.replicate 65534 emptyPublish ++
      [.subscribe textB ⟨.qos1, some 1, 0⟩ unhindered]))).2
  rw [Machine.run_append, Machine.run_append, run_emptyPublish _ online,
    around] at collides
  revert collides
  decide

end Mqtt
end UIoT
