import UIoT.Mqtt.Sessions

/-!
# Framing of the outgoing stream

What was written to the connection is a sequence of whole packets, and perhaps
the beginning of one more.  No encoding of a packet is the beginning of
another one, so a stream that ends within a packet is no sequence of packets,
and whatever is written behind it is lost for the receiver.
-/

namespace UIoT
namespace Mqtt

/-! ## Whole and cut streams -/

/-- A packet whose header names a type. -/
def WirePacket.Typed (packet : WirePacket) : Prop :=
  ∃ type, packet.HasType type

/-- The bytes are those of whole packets. -/
def StreamFramed (output : List UInt8) : Prop :=
  ∃ packets : List WirePacket,
    (∀ packet ∈ packets, packet.Typed) ∧ output = wire packets

/-- The bytes are those of whole packets, followed by at most one part of a
packet. -/
def StreamCut (output : List UInt8) : Prop :=
  ∃ (packets : List WirePacket) (part : List UInt8) (last : WirePacket),
    (∀ packet ∈ packets, packet.Typed) ∧ last.Typed ∧ part <+: last.bytes ∧
      output = wire packets ++ part

/-- No packet is the beginning of another one. -/
theorem WirePacket.bytes_append_inj {first second : WirePacket}
    {rest other : List UInt8}
    (same : first.bytes ++ rest = second.bytes ++ other) :
    first = second ∧ rest = other := by
  obtain ⟨header, body, body_le⟩ := first
  obtain ⟨header', body', body_le'⟩ := second
  simp only [bytes, lengthBytes, List.cons_append, List.append_assoc,
    List.cons.injEq] at same
  obtain ⟨rfl, same⟩ := same
  rw [mqttWritePacketRemLen_eq_encode body_le,
    mqttWritePacketRemLen_eq_encode body_le'] at same
  have below : ∀ {length}, length ≤ maxRemLen →
      length < 128 ^ maxNoOfRemainingLengthBytes :=
    fun small => Nat.lt_of_le_of_lt small (by decide)
  obtain ⟨lengths, bodies⟩ := ContinuationCode.encode_append_inj
    (below body_le) (below body_le') (by decide) same
  obtain ⟨rfl, rests⟩ := List.append_inj bodies lengths
  exact ⟨rfl, rests⟩

/-- A stream that ends within a packet is no sequence of packets. -/
theorem not_streamFramed_of_part {packets : List WirePacket}
    (last : WirePacket) {part : List UInt8} (isPrefix : part <+: last.bytes)
    (started : part ≠ [])
    (unfinished : part ≠ last.bytes) :
    ¬StreamFramed (wire packets ++ part) := by
  rintro ⟨others, -, same⟩
  induction packets generalizing others with
  | nil =>
      obtain ⟨missing, whole⟩ := isPrefix
      cases others with
      | nil => exact started same
      | cons other others =>
          rw [wire_nil, List.nil_append, wire_cons] at same
          have bytes : last.bytes ++ [] =
              other.bytes ++ (wire others ++ missing) := by
            rw [List.append_nil, ← whole, same, List.append_assoc]
          obtain ⟨-, rests⟩ := WirePacket.bytes_append_inj bytes
          have nothing := (List.append_eq_nil_iff.mp rests.symm).2
          rw [nothing, List.append_nil] at whole
          exact unfinished whole
  | cons packet packets inductionHypothesis =>
      rw [wire_cons, List.append_assoc] at same
      cases others with
      | nil => simp [WirePacket.bytes] at same
      | cons other others =>
          rw [wire_cons] at same
          exact inductionHypothesis others (WirePacket.bytes_append_inj same).2

theorem StreamFramed.nil : StreamFramed [] := ⟨[], by simp, rfl⟩

/-- One more packet, or a part of one. -/
theorem StreamFramed.append {output : List UInt8} (framed : StreamFramed output)
    {packet : WirePacket} (typed : packet.Typed) :
    StreamFramed (output ++ packet.bytes) := by
  obtain ⟨packets, allTyped, rfl⟩ := framed
  refine ⟨packets ++ [packet], ?_, by simp [wire]⟩
  intro other mem
  rcases List.mem_append.mp mem with mem | mem
  · exact allTyped other mem
  · exact List.mem_singleton.mp mem ▸ typed

theorem StreamFramed.append_part {output part : List UInt8}
    (framed : StreamFramed output) {packet : WirePacket}
    (typed : packet.Typed) (isPrefix : part <+: packet.bytes) :
    StreamCut (output ++ part) := by
  obtain ⟨packets, allTyped, rfl⟩ := framed
  exact ⟨packets, part, packet, allTyped, typed, isPrefix, rfl⟩

/-- PINGREQ. -/
def pingreqPacket : WirePacket := ⟨0xC0, [], by decide⟩

theorem StreamFramed.cut {output : List UInt8} (framed : StreamFramed output) :
    StreamCut output := by
  have typed : pingreqPacket.Typed :=
    ⟨.pingreq, by decide, show headerType 0xC0 = 12 by decide⟩
  simpa using framed.append_part typed (List.nil_prefix)

/-! ## Whole sends -/

/-- The length of a packet with a body of this length. -/
def packetLen (bodyLen : Nat) : Nat :=
  1 + (mqttWritePacketRemLen bodyLen).length + bodyLen

/-- The writes take a packet with a body of this length, or nothing. -/
def WholeOrNothing (bodyLen : Nat) (writes : List WriteOutcome) : Prop :=
  sentCount (packetLen bodyLen) writes = 0 ∨
    sentCount (packetLen bodyLen) writes = packetLen bodyLen

/-- The writes take no more than a packet with a body of this length. -/
def AtMostWhole (bodyLen : Nat) (writes : List WriteOutcome) : Prop :=
  sentCount (packetLen bodyLen) writes ≤ packetLen bodyLen

theorem slice_isPrefix (memory : Memory) {first second : Nat}
    (shorter : first ≤ second) :
    memory.slice 0 first <+: memory.slice 0 second := by
  obtain ⟨rest, rfl⟩ := Nat.exists_eq_add_of_le shorter
  rw [Memory.slice_add]
  exact List.prefix_append ..

/-- The packet is put on the connection as a whole or not at all. -/
def Sending.Whole (sending : Sending) : Prop :=
  sending.bytes = [] ∨ sending.bytes = sending.packet.bytes

theorem Sending.Offers.len {sending : Sending} {bodyLen : Nat}
    {writes : List WriteOutcome} (offers : sending.Offers bodyLen writes) :
    sending.packet.bytes.length = packetLen bodyLen := by
  rw [WirePacket.length_bytes, WirePacket.lengthBytes, offers.1, packetLen]

theorem Sending.Offers.whole {sending : Sending} {bodyLen : Nat}
    {writes : List WriteOutcome} (offers : sending.Offers bodyLen writes)
    (wholeOrNothing : WholeOrNothing bodyLen writes) : sending.Whole := by
  have len := offers.len
  unfold Sending.Whole Sending.bytes
  rw [← offers.2, WholeOrNothing, ← len] at wholeOrNothing
  rcases wholeOrNothing with nothing | whole
  · rw [nothing]
    exact .inl rfl
  · rw [whole]
    exact .inr sending.holds

theorem Sending.Offers.isPrefix {sending : Sending} {bodyLen : Nat}
    {writes : List WriteOutcome} (offers : sending.Offers bodyLen writes)
    (atMostWhole : AtMostWhole bodyLen writes) :
    sending.bytes <+: sending.packet.bytes := by
  have len := offers.len
  unfold Sending.bytes
  rw [← offers.2, AtMostWhole, ← len] at atMostWhole
  have part := slice_isPrefix sending.buf atMostWhole
  rwa [show sending.buf.slice 0 sending.packet.bytes.length =
    sending.packet.bytes from sending.holds] at part

/-- Where nothing is sent, nothing is written. -/
theorem Client.Sends.output_eq {c after : Client}
    (sends : Client.Sends (fun _ => False) c after) :
    after.output = c.output := by
  obtain ⟨sendings, kinds, output⟩ := sends.output
  cases sendings with
  | nil => simpa using output
  | cons sending sendings => exact (kinds sending List.mem_cons_self).elim

/-- Whole sends keep a stream whole. -/
theorem StreamFramed.sends {kind : Sending → Prop} {c after : Client}
    (framed : StreamFramed c.output) (sends : Client.Sends kind c after)
    (whole : ∀ sending, kind sending → sending.Whole) :
    StreamFramed after.output := by
  obtain ⟨sendings, kinds, output⟩ := sends.output
  rw [output]
  clear output
  generalize c.output = stream at framed ⊢
  induction sendings generalizing stream with
  | nil => simpa using framed
  | cons sending sendings inductionHypothesis =>
      rw [List.flatMap_cons, ← List.append_assoc]
      apply inductionHypothesis
      · exact fun other mem => kinds other (List.mem_cons_of_mem _ mem)
      · rcases whole sending (kinds sending List.mem_cons_self) with
          nothing | all
        · simpa [nothing] using framed
        · rw [all]
          exact framed.append sending.typed

/-! ## Conditions on the writes -/

/-- CONNECT is well formed and at most cut, and answers while waiting for
CONNACK are not cut. -/
structure ConnectWhole (options : MQTTConnectParams) (env : ConnectEnv) :
    Prop where
  lengthFits : options.LengthFits
  connect : AtMostWhole (connectBodyLen options) env.writes
  answers : ∀ cycle ∈ env.cycles, WholeOrNothing 2 cycle.writes

/-- The requests for the slots that the loop finds occupied are not cut. -/
def ResubscribeWhole (c : Client) (envs : Fin maxSubTopics → RequestEnv) :
    Prop :=
  ∀ i topic, (c.subHandles i).topicFilter = some topic →
    WholeOrNothing (topic.text.bytes.length + 5) (envs i).writes

/-- No packet of a reconnect but CONNECT is cut. -/
structure ReconnectWhole (c : Client) (env : ReconnectEnv) : Prop where
  connect : ConnectWhole c.options env.connect
  requests : ResubscribeWhole (uiotMqttConnect c c.options env.connect).1
    env.requests

/-- Every packet of a call but CONNECT and DISCONNECT is taken as a whole or
not at all, these two are taken in part at most, and no length field
overflows. -/
def Call.Whole (c : Client) : Call → Prop
  | .connect options env => c.isConnected = false → ConnectWhole options env
  | .publish topicName params env =>
      topicName.bytes.length + (params.payload.getD []).length + 4 < 2 ^ 32 ∧
        WholeOrNothing (publishBodyLen params.qos topicName
          (params.payload.getD []).length) env.writes
  | .subscribe topicFilter _ env =>
      WholeOrNothing (topicFilter.bytes.length + 5) env.writes
  | .unsubscribe topicFilter env =>
      WholeOrNothing (topicFilter.bytes.length + 4) env.writes
  | .disconnect writes => AtMostWhole 0 writes
  | .attemptReconnect env => c.isConnected = false → ReconnectWhole c env
  | .pass env =>
      if c.isConnected then
        WholeOrNothing 2 env.cycle.writes ∧
          (∀ attempt, WholeOrNothing 0 (env.pings attempt)) ∧
          AtMostWhole 0 env.disconnectWrites
      else
        (c.tick env.elapsed).Attempts →
          ReconnectWhole (c.tick env.elapsed) env.reconnect
  | _ => True

/-! ## Connecting -/

/-- What waiting for a packet sends. -/
theorem waitForRead_sends (packetType : UInt8) (cycles : List CycleEnv)
    (readPacketType : UInt8) (c : Client) :
    Client.Sends (fun sending => ∃ env ∈ cycles, sending.Offers 2 env.writes) c
      (waitForRead packetType cycles readPacketType c).1 := by
  induction cycles generalizing readPacketType c with
  | nil => exact .refl c
  | cons env cycles inductionHypothesis =>
      have first : Client.Sends
          (fun sending => ∃ env' ∈ env :: cycles, sending.Offers 2 env'.writes)
          c (cycleForRead c readPacketType env).1 :=
        (cycleForRead_sends c readPacketType env).mono fun sending offers =>
          ⟨env, List.mem_cons_self, offers⟩
      unfold waitForRead
      dsimp only
      split
      · refine first.trans ((inductionHypothesis _ _).mono ?_)
        rintro sending ⟨other, mem, offers⟩
        exact ⟨other, List.mem_cons_of_mem _ mem, offers⟩
      · exact first

/-- An attempt to connect: the network refuses it, or its connection starts
with at most a part of CONNECT, and with whole packets if it is accepted. -/
theorem mqttConnect_framing {c : Client} {options : MQTTConnectParams}
    {env : ConnectEnv} (disconnected : c.isConnected = false)
    (whole : ConnectWhole options env) :
    let after := (mqttConnect c options env).1
    (env.networkRet ≠ .successRet ∧ after.isConnected = false ∧
        after.output = c.output) ∨
      (env.networkRet = .successRet ∧ StreamCut after.output ∧
        (after.isConnected = true → StreamFramed after.output)) := by
  intro after
  have connects := sendConnect_cases c env whole.lengthFits
  have after_def : after = (mqttConnect c options env).1 := rfl
  unfold mqttConnect at after_def
  generalize sendConnect c options env = sent at connects after_def
  obtain ⟨next, ret⟩ := sent
  rcases connects with ⟨refused, failed, same⟩ |
    ⟨opened, lost, ⟨failed, nothing⟩ | ⟨sending, offers, bytes, complete⟩⟩
  · have after_eq : after = next := by
      rw [after_def]
      cases ret <;> first | rfl | exact absurd rfl failed
    rw [after_eq, show next = _ from same]
    exact .inl ⟨refused, disconnected, rfl⟩
  · have after_eq : after = next := by
      rw [after_def]
      cases ret <;> first | rfl | exact absurd rfl failed
    rw [after_eq, show next.output = [] from nothing]
    exact .inr ⟨opened, StreamFramed.nil.cut, fun _ => .nil⟩
  · refine .inr ⟨opened, ?_⟩
    have part := StreamFramed.nil.append_part sending.typed
      (offers.isPrefix whole.connect)
    rw [List.nil_append] at part
    have output : next.output = sending.bytes := bytes
    have stillLost : next.isConnected = false := lost.trans disconnected
    by_cases success : ret = .successRet
    · subst success
      have framed : StreamFramed next.output := by
        rw [output, complete rfl]
        exact StreamFramed.nil.append sending.typed
      have waits := waitForRead_sends MessageTypes.connack.code env.cycles 0
        next
      have waited := framed.sends waits fun other ⟨cycle, mem, offers⟩ =>
        offers.whole (whole.answers cycle mem)
      dsimp only at after_def
      split at after_def
      · rename_i wait
        rw [wait] at waited
        have accepted : StreamFramed after.output := by
          rw [after_def, acceptConnection_output]
          exact waited
        exact ⟨accepted.cut, fun _ => accepted⟩
      · rename_i wait
        rw [wait] at waited
        rw [after_def]
        exact ⟨waited.cut, fun _ => waited⟩
    · have after_eq : after = next := by
        rw [after_def]
        cases ret <;> first | rfl | exact absurd rfl success
      rw [after_eq, output]
      refine ⟨part, fun connected => ?_⟩
      exact absurd (stillLost.symm.trans connected) (by decide)

/-- Subscribing again sends the requests for the occupied slots. -/
theorem resubscribeLoop_sends (envs : Fin maxSubTopics → RequestEnv)
    (slots : List (Fin maxSubTopics)) (c : Client) :
    Client.Sends
      (fun sending => ∃ i topic, (c.subHandles i).topicFilter = some topic ∧
        sending.Offers (topic.text.bytes.length + 5) (envs i).writes)
      c (resubscribeLoop envs slots c).1 := by
  induction slots generalizing c with
  | nil => exact .refl c
  | cons i slots inductionHypothesis =>
      cases occupied : (c.subHandles i).topicFilter with
      | none =>
        rw [resubscribeLoop_empty envs slots occupied]
        exact inductionHypothesis c
      | some topic =>
        let params : SubscribeParams := ⟨(c.subHandles i).qos,
          (c.subHandles i).messageHandler, (c.subHandles i).messageHandlerData⟩
        have first : Client.Sends (fun sending => ∃ i topic,
            (c.subHandles i).topicFilter = some topic ∧
              sending.Offers (topic.text.bytes.length + 5) (envs i).writes) c
            (uiotMqttSubscribe c topic.text params (envs i)).1 :=
          (uiotMqttSubscribe_sends c topic.text params (envs i)).mono
            fun sending offers => ⟨i, topic, occupied, offers⟩
        have slotsKept : (uiotMqttSubscribe c topic.text params
            (envs i)).1.subHandles = c.subHandles := by
          rcases uiotMqttSubscribe_cases c topic.text params (envs i) with
            ⟨-, -, slots, -⟩ | ⟨-, -, slots, -⟩ <;> exact slots
        generalize requested : uiotMqttSubscribe c topic.text params
          (envs i) = result at first slotsKept
        obtain ⟨next, ret | packetId⟩ := result
        · rw [resubscribeLoop_refused envs slots occupied requested]
          exact first
        · rw [resubscribeLoop_subscribed envs slots occupied requested]
          have rest := inductionHypothesis next
          rw [show next.subHandles = c.subHandles from slotsKept] at rest
          exact first.trans rest

/-- An attempt to reconnect is as one to connect. -/
theorem uiotMqttAttemptReconnect_framing {c : Client} {env : ReconnectEnv}
    (disconnected : c.isConnected = false) (whole : ReconnectWhole c env) :
    let after := (uiotMqttAttemptReconnect c env).1
    (env.connect.networkRet ≠ .successRet ∧ after.isConnected = false ∧
        after.output = c.output) ∨
      (env.connect.networkRet = .successRet ∧ StreamCut after.output ∧
        (after.isConnected = true → StreamFramed after.output)) := by
  have connects := mqttConnect_framing disconnected whole.connect
  have requests := whole.requests
  unfold ResubscribeWhole at requests
  have attempt_eq : uiotMqttConnect c c.options env.connect =
      mqttConnect c c.options env.connect := by
    rw [uiotMqttConnect, disconnected, if_neg (by decide)]
  unfold uiotMqttAttemptReconnect
  rw [disconnected, if_neg (by decide)]
  rw [attempt_eq] at requests ⊢
  generalize mqttConnect c c.options env.connect = attempt
    at connects requests ⊢
  obtain ⟨next, ret⟩ := attempt
  dsimp only at connects requests ⊢
  cases connected : next.isConnected with
  | false =>
      rcases connects with ⟨refused, lost, same⟩ | ⟨opened, cut, framed⟩
      · exact .inl ⟨refused, lost, same⟩
      · exact .inr ⟨opened, cut, framed⟩
  | true =>
      rcases connects with ⟨-, lost, -⟩ | ⟨opened, -, framed⟩
      · exact absurd (lost.symm.trans connected) (by decide)
      · have sends := resubscribeLoop_sends env.requests
          (List.finRange maxSubTopics) next
        have still := (framed connected).sends sends
          fun sending ⟨i, topic, occupied, offers⟩ =>
            offers.whole (requests i topic occupied)
        have loop : uiotMqttResubscribe next env.requests =
            resubscribeLoop env.requests (List.finRange maxSubTopics) next := by
          rw [uiotMqttResubscribe, connected, if_neg (by decide)]
        simp only [Bool.not_true, Bool.false_eq_true, if_false, loop]
        generalize resubscribeLoop env.requests (List.finRange maxSubTopics)
          next = result at still ⊢
        obtain ⟨last, answer⟩ := result
        refine .inr ⟨opened, ?_⟩
        split <;> exact ⟨StreamFramed.cut (by simp_all), fun _ => by simp_all⟩

/-! ## Calls -/

/-- The call opens a network connection. -/
def Call.Opens (c : Client) : Call → Prop
  | .connect _ env => c.isConnected = false ∧ env.networkRet = .successRet
  | .attemptReconnect env =>
      c.isConnected = false ∧ env.connect.networkRet = .successRet
  | .pass env =>
      c.isConnected = false ∧ (c.tick env.elapsed).Attempts ∧
        env.reconnect.connect.networkRet = .successRet
  | _ => False

/-- After the call the stream consists of whole packets and at most one part of
a packet, and where it ended in a part before, nothing was written behind it on
the same connection. -/
structure KeepsFraming (c : Client) (call : Call) : Prop where
  cut : StreamCut (c.call call).output
  silent : ¬StreamFramed c.output →
    (c.call call).output = c.output ∨ call.Opens c

/-- The stream of a connected client consists of whole packets. -/
structure WellFramed (c : Client) : Prop where
  cut : StreamCut c.output
  framed : c.isConnected = true → StreamFramed c.output

/-- What a call on one connection makes of the stream. -/
structure FramedAfter (c after : Client) : Prop where
  framing : WellFramed after
  silent : ¬StreamFramed c.output → after.output = c.output

/-- Whole sends of a connected client. -/
theorem WellFramed.sends {kind : Sending → Prop} {c after : Client}
    (framing : WellFramed c) (sends : Client.Sends kind c after)
    (idle : c.isConnected = false → after.output = c.output)
    (whole : ∀ sending, kind sending → sending.Whole) :
    FramedAfter c after := by
  cases connected : c.isConnected with
  | true =>
      have framed := framing.framed connected
      have still := framed.sends sends whole
      exact ⟨⟨still.cut, fun _ => still⟩, fun unframed => absurd framed unframed⟩
  | false =>
      have same := idle connected
      refine ⟨⟨same ▸ framing.cut, fun alive => ?_⟩, fun _ => same⟩
      rw [sends.isConnected, connected] at alive
      exact absurd alive (by decide)

theorem uiotMqttDisconnect_framedAfter {c : Client} (framing : WellFramed c)
    {writes : List WriteOutcome} (whole : AtMostWhole 0 writes) :
    FramedAfter c (uiotMqttDisconnect c writes).1 := by
  obtain ⟨lost, same | ⟨connected, sending, offers, output⟩⟩ :=
    uiotMqttDisconnect_cases c writes
  · refine ⟨⟨same ▸ framing.cut, fun alive => ?_⟩, fun _ => same⟩
    exact absurd (lost.symm.trans alive) (by decide)
  · have framed := framing.framed connected
    refine ⟨⟨?_, fun alive => ?_⟩, fun unframed => absurd framed unframed⟩
    · rw [output]
      exact framed.append_part sending.typed (offers.isPrefix whole)
    · exact absurd (lost.symm.trans alive) (by decide)

theorem FramedAfter.of_eq {c after other : Client}
    (framed : FramedAfter c after)
    (isConnected : other.isConnected = after.isConnected)
    (output : other.output = after.output) : FramedAfter c other := by
  refine ⟨⟨output ▸ framed.framing.cut, fun connected => ?_⟩, fun unframed => ?_⟩
  · rw [output]
    exact framed.framing.framed (isConnected.symm.trans connected)
  · rw [output]
    exact framed.silent unframed

theorem FramedAfter.trans {c after last : Client}
    (first : FramedAfter c after) (second : FramedAfter after last) :
    FramedAfter c last := by
  refine ⟨second.framing, fun unframed => ?_⟩
  have same := first.silent unframed
  rw [second.silent (by rwa [same]), same]

/-- A request on a client that is not connected writes nothing. -/
theorem request_idle {c : Client} {topic : CString} {qos : QoS}
    {checked : Client × Except IoTError UInt16}
    (disconnected : c.isConnected = false)
    {result : Client × Except IoTError UInt16}
    (cases' : (RequestChecked c topic qos ∧ result = checked) ∨
      (¬RequestChecked c topic qos ∧ ∃ ret, result = (c, .error ret))) :
    result.1.output = c.output := by
  rcases cases' with ⟨passed, -⟩ | ⟨-, ret, refused⟩
  · exact absurd (disconnected.symm.trans passed.2.2.2) (by decide)
  · rw [refused]

theorem uiotMqttUnsubscribe_idle {c : Client} {topicFilter : CString}
    {env : RequestEnv} (disconnected : c.isConnected = false) :
    (uiotMqttUnsubscribe c topicFilter env).1.output = c.output := by
  have clears := clearSlots_sends (fun _ => False) topicFilter
    (List.finRange maxSubTopics) c false
  have same := clears.output_eq
  have lost := clears.isConnected.trans disconnected
  unfold uiotMqttUnsubscribe
  split
  · rfl
  split
  · rfl
  generalize clearSlots topicFilter (List.finRange maxSubTopics) c false =
    cleared at same lost ⊢
  obtain ⟨next, _ | _⟩ := cleared
  · exact same
  · dsimp only at lost same ⊢
    rw [lost]
    exact same

theorem yieldPass_framing {c : Client} {env : YieldEnv}
    (framing : WellFramed c) (whole : (Call.pass env).Whole c) :
    WellFramed (yieldPass c env).1 ∧ KeepsFraming c (.pass env) := by
  simp only [Call.Whole] at whole
  have keeps : FramedAfter c (yieldPass c env).1 →
      WellFramed (yieldPass c env).1 ∧ KeepsFraming c (.pass env) :=
    fun after => ⟨after.framing, after.framing.cut,
      fun unframed => .inl (after.silent unframed)⟩
  cases connected : c.isConnected with
  | true =>
      rw [if_pos connected] at whole
      obtain ⟨answers, pings, disconnect⟩ := whole
      have wholePings : ∀ sending, env.Pings sending → sending.Whole :=
        fun sending ⟨attempt, offers⟩ => offers.whole (pings attempt)
      have alive : ∀ after : Client, c.isConnected = false →
          after.output = c.output :=
        fun _ lost => absurd (connected.symm.trans lost) (by decide)
      rw [yieldPass_of_connected env connected] at keeps ⊢
      have ticked : FramedAfter c (c.tick env.elapsed) :=
        ⟨⟨framing.cut, framing.framed⟩, fun _ => rfl⟩
      have sends := cycleForRead_sends (c.tick env.elapsed) 0 env.cycle
      have cycled := ticked.framing.sends sends
        (fun lost => alive _ lost) fun sending offers => offers.whole answers
      generalize cycleForRead (c.tick env.elapsed) 0 env.cycle = cycle
        at sends cycled keeps ⊢
      have online : cycle.1.isConnected = true := by
        rw [sends.isConnected]
        exact connected
      have after := afterCycle_cases cycle.1 cycle.2.1 env
      have idle : ∀ next : Client, cycle.1.isConnected = false →
          next.output = cycle.1.output :=
        fun _ lost => absurd (online.symm.trans lost) (by decide)
      have next : FramedAfter cycle.1 (afterCycle cycle.1 cycle.2.1 env).1 := by
        rcases after with kept | ⟨sent, pinged, lost⟩
        · exact cycled.framing.sends kept (idle _) wholePings
        · have pingsSent := cycled.framing.sends pinged (idle _) wholePings
          obtain ⟨isConnected, output⟩ :=
            handleDisconnect_cases sent env.disconnectWrites
          rw [lost]
          exact pingsSent.trans ((uiotMqttDisconnect_framedAfter
            pingsSent.framing disconnect).of_eq isConnected output)
      generalize afterCycle cycle.1 cycle.2.1 env = result at next keeps ⊢
      have ends := endPass_sends (fun _ => False) result.1 result.2
      exact keeps ((ticked.trans (cycled.trans next)).of_eq ends.isConnected
        ends.output_eq)
  | false =>
      rw [if_neg (by simp [connected])] at whole
      rcases yieldPass_of_disconnected env connected with
        ⟨-, waits⟩ | ⟨due, attempts⟩
      · rw [waits] at keeps ⊢
        exact keeps ⟨⟨framing.cut, framing.framed⟩, fun _ => rfl⟩
      · have attempt := uiotMqttAttemptReconnect_framing
          (c := c.tick env.elapsed) connected (whole due)
        have pass : (c.call (.pass env)) = (yieldPass c env).1 := rfl
        rw [attempts] at keeps pass ⊢
        generalize uiotMqttAttemptReconnect (c.tick env.elapsed)
          env.reconnect = result at attempt keeps pass ⊢
        have ends := afterAttempt_sends (fun _ => False) result.1
          result.2
        have same := ends.output_eq
        rcases attempt with ⟨-, lost, output⟩ | ⟨opened, cut, framed⟩
        · refine keeps ⟨⟨?_, fun alive => ?_⟩, fun _ => same.trans output⟩
          · rw [same, output]
            exact framing.cut
          · rw [ends.isConnected, lost] at alive
            exact absurd alive (by decide)
        · have cut' : StreamCut (afterAttempt result.1 result.2).1.output := by
            rwa [same]
          refine ⟨⟨cut', fun alive => ?_⟩, ?_, fun _ =>
            .inr ⟨connected, due, opened⟩⟩
          · rw [same]
            exact framed (ends.isConnected.symm.trans alive)
          · rw [pass]
            exact cut'

/-- A call whose packets are not cut keeps the framing of the stream. -/
theorem Client.call_framing {c : Client} {call : Call} (framing : WellFramed c)
    (whole : call.Whole c) : WellFramed (c.call call) ∧ KeepsFraming c call := by
  have keeps : FramedAfter c (c.call call) →
      WellFramed (c.call call) ∧ KeepsFraming c call :=
    fun after => ⟨after.framing, after.framing.cut,
      fun unframed => .inl (after.silent unframed)⟩
  cases call with
  | connect options env =>
      cases connected : c.isConnected with
      | true =>
          have call_eq : c.call (.connect options env) = c := by
            rw [Client.call, uiotMqttConnect, connected, if_pos rfl]
          rw [call_eq] at keeps ⊢
          exact keeps ⟨framing, fun _ => rfl⟩
      | false =>
          have call_eq : c.call (.connect options env) =
              (mqttConnect c options env).1 := by
            rw [Client.call, uiotMqttConnect, connected, if_neg (by decide)]
          rcases mqttConnect_framing connected (whole connected) with
            ⟨-, lost, output⟩ | ⟨opened, cut, framed⟩
          · refine keeps ⟨⟨?_, fun alive => ?_⟩, fun _ => ?_⟩
            · rw [call_eq, output]
              exact framing.cut
            · rw [call_eq, lost] at alive
              exact absurd alive (by decide)
            · rw [call_eq, output]
          · rw [← call_eq] at cut framed
            exact ⟨⟨cut, framed⟩, cut, fun _ => .inr ⟨connected, opened⟩⟩
  | publish topicName params env =>
      exact keeps (framing.sends (uiotMqttPublish_sends c env whole.1)
        (fun disconnected => request_idle disconnected
          (requestChecked_cases c topicName params.qos
            (publishChecked c topicName params env)))
        fun sending offers => offers.whole whole.2)
  | subscribe topicFilter params env =>
      exact keeps (framing.sends (uiotMqttSubscribe_sends c topicFilter params
        env)
        (fun disconnected => request_idle disconnected
          (requestChecked_cases c topicFilter params.qos
            (subscribeChecked c topicFilter params env)))
        fun sending offers => offers.whole whole)
  | unsubscribe topicFilter env =>
      exact keeps (framing.sends (uiotMqttUnsubscribe_sends c topicFilter env)
        uiotMqttUnsubscribe_idle fun sending offers => offers.whole whole)
  | disconnect writes =>
      exact keeps (uiotMqttDisconnect_framedAfter framing whole)
  | attemptReconnect env =>
      cases connected : c.isConnected with
      | true =>
          have call_eq : c.call (.attemptReconnect env) = c := by
            rw [Client.call, uiotMqttAttemptReconnect, connected, if_pos rfl]
          rw [call_eq] at keeps ⊢
          exact keeps ⟨framing, fun _ => rfl⟩
      | false =>
          rcases uiotMqttAttemptReconnect_framing connected
              (whole connected) with
            ⟨-, lost, output⟩ | ⟨opened, cut, framed⟩
          · refine keeps ⟨⟨?_, fun alive => ?_⟩, fun _ => output⟩
            · rw [Client.call, output]
              exact framing.cut
            · rw [Client.call, lost] at alive
              exact absurd alive (by decide)
          · exact ⟨⟨cut, framed⟩, cut, fun _ => .inr ⟨connected, opened⟩⟩
  | setAutoreconnect value =>
      exact keeps ⟨⟨framing.cut, framing.framed⟩, fun _ => rfl⟩
  | pass env => exact yieldPass_framing framing whole
  | elapse duration =>
      exact keeps ⟨⟨framing.cut, framing.framed⟩, fun _ => rfl⟩

/-- In every run whose packets are not cut, the stream of each connection
consists of whole packets and at most one part of a packet, behind which
nothing is written. -/
theorem run_keepsFraming (params : MQTTInitParams) (clock : Nat)
    (calls : List Call)
    (whole : Machine.Along Client.call (fun c call => call.Whole c)
      (uiotMqttInit params clock) calls) :
    Machine.Along Client.call KeepsFraming (uiotMqttInit params clock) calls :=
  whole.imp_of_invariant WellFramed
    (fun _ _ framing whole => (Client.call_framing framing whole).2)
    (fun _ _ framing whole => (Client.call_framing framing whole).1)
    ⟨StreamFramed.nil.cut, fun _ => .nil⟩

/-- Publishing nothing on `"a"` twice, after a connect; the writes of the first
publish are an argument. -/
def publishingTwice (writes : List WriteOutcome) : List Call :=
  [.connect plainOptions acceptedConnect,
    .publish textA ⟨.qos0, 0, 0, some []⟩ { unhindered with writes },
    .publish textA ⟨.qos0, 0, 0, some []⟩ unhindered]

/-- The case of two publishes whose packets are not cut. -/
theorem run_keepsFraming_publishingTwice :
    Machine.Along Client.call KeepsFraming (uiotMqttInit ⟨2000, true⟩ 0)
      (publishingTwice [.accepted uiotMqttTxBufLen]) := by
  have short : textA.bytes.length + 0 + 4 < 2 ^ 32 := by decide
  have connect : ConnectWhole plainOptions acceptedConnect := by
    refine ⟨⟨.inr rfl, fun clientId present => ?_⟩, ?_, ?_⟩
    · obtain rfl := Option.some.inj present
      decide
    · unfold AtMostWhole
      decide
    · unfold WholeOrNothing
      decide
  have publish : WholeOrNothing (publishBodyLen .qos0 textA 0)
      [.accepted uiotMqttTxBufLen] := by
    unfold WholeOrNothing
    decide
  exact run_keepsFraming ⟨2000, true⟩ 0 _
    ⟨fun _ => connect, ⟨short, publish⟩, ⟨short, publish⟩, trivial⟩

/-- The network takes one byte of a PUBLISH and then fails.  The client stays
connected and puts the next packet behind that byte. -/
theorem cutPublish_isWrittenBehind :
    ¬∀ calls, Machine.Along Client.call KeepsFraming
      (uiotMqttInit ⟨2000, true⟩ 0) calls := by
  intro all
  let calls := publishingTwice [.accepted 1, .failure]
  let cut := Machine.run Client.call (uiotMqttInit ⟨2000, true⟩ 0)
    (calls.take 2)
  let last : Call := .publish textA ⟨.qos0, 0, 0, some []⟩ unhindered
  have keeps : KeepsFraming cut last := (all calls).2.2.1
  let connect : WirePacket := ⟨0x10, connectBody plainOptions textA, by decide⟩
  let publish : WirePacket := ⟨0x30, [0, 1, 97], by decide⟩
  have output : cut.output = wire [connect] ++ [0x30] := by decide +kernel
  have unframed : ¬StreamFramed cut.output := by
    rw [output]
    exact not_streamFramed_of_part publish ⟨[3, 0, 1, 97], by decide⟩
      (by decide) (by decide)
  rcases keeps.silent unframed with same | opens
  · have longer : (cut.call last).output ≠ cut.output := by decide +kernel
    exact longer same
  · exact opens

end Mqtt
end UIoT
