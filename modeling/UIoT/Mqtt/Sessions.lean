import UIoT.Library.Machine
import UIoT.Mqtt.Runs
import UIoT.Mqtt.Sending

/-!
# Sessions

The calls of a user and the passes of `uiot_mqtt_yield`, with what each of them
writes to the connection.  Only a client that is not connected opens a new
connection, on which the client is connected if CONNECT was sent as a whole and
accepted.
-/

namespace UIoT
namespace Mqtt

/-! ## Calls -/

/-- The calls of a session.  `uiot_mqtt_yield` is a sequence of passes. -/
inductive Call
  | connect (options : MQTTConnectParams) (env : ConnectEnv)
  | publish (topicName : CString) (params : PublishParams) (env : RequestEnv)
  | subscribe (topicFilter : CString) (params : SubscribeParams)
      (env : RequestEnv)
  | unsubscribe (topicFilter : CString) (env : RequestEnv)
  | disconnect (writes : List WriteOutcome)
  | attemptReconnect (env : ReconnectEnv)
  | setAutoreconnect (value : Bool)
  | pass (env : YieldEnv)
  | elapse (duration : Nat)

/-- What a call does to the client. -/
def Client.call (c : Client) : Call → Client
  | .connect options env => (uiotMqttConnect c options env).1
  | .publish topicName params env => (uiotMqttPublish c topicName params env).1
  | .subscribe topicFilter params env =>
      (uiotMqttSubscribe c topicFilter params env).1
  | .unsubscribe topicFilter env => (uiotMqttUnsubscribe c topicFilter env).1
  | .disconnect writes => (uiotMqttDisconnect c writes).1
  | .attemptReconnect env => (uiotMqttAttemptReconnect c env).1
  | .setAutoreconnect value => uiotMqttSetAutoreconnect c value
  | .pass env => (yieldPass c env).1
  | .elapse duration => c.tick duration

/-- `uiot_mqtt_yield` makes some of the passes it has time for. -/
theorem uiotMqttYield_eq_run (c : Client) (timeoutMs : Nat)
    (envs : List YieldEnv) :
    ∃ passes, passes <+: envs ∧
      (uiotMqttYield c timeoutMs envs).1 =
        Machine.run Client.call c (passes.map .pass) := by
  have loop : ∀ (envs : List YieldEnv) (c : Client) (ret : IoTError),
      ∃ passes, passes <+: envs ∧ (yieldLoop envs c ret).1 =
        Machine.run Client.call c (passes.map .pass) := by
    intro envs
    induction envs with
    | nil => exact fun c ret => ⟨[], List.prefix_refl _, rfl⟩
    | cons env envs inductionHypothesis =>
        intro c ret
        unfold yieldLoop
        split
        · rename_i next nextRet pass
          obtain ⟨passes, isPrefix, same⟩ := inductionHypothesis next nextRet
          refine ⟨env :: passes, List.cons_prefix_cons.mpr ⟨rfl, isPrefix⟩, ?_⟩
          rw [same, List.map_cons, Machine.run_cons, Client.call, pass]
        · rename_i next nextRet pass
          refine ⟨[env], List.cons_prefix_cons.mpr ⟨rfl, List.nil_prefix⟩, ?_⟩
          simp [Client.call, pass]
  unfold uiotMqttYield
  split
  · exact ⟨[], List.nil_prefix, rfl⟩
  split
  · exact ⟨[], List.nil_prefix, rfl⟩
  split
  · exact ⟨[], List.nil_prefix, rfl⟩
  · exact loop envs c .successRet

/-! ## Connecting -/

/-- CONNECT is refused with an error. -/
theorem serializeConnectPacket_error {buf : Memory}
    {options : MQTTConnectParams} {ret : IoTError}
    (answered : serializeConnectPacket buf uiotMqttTxBufLen options =
      .error ret) : ret ≠ .successRet := by
  unfold serializeConnectPacket at answered
  split at answered
  · obtain rfl := Except.error.inj answered
    decide
  split at answered
  · obtain rfl := Except.error.inj answered
    decide
  dsimp only at answered
  split at answered
  · obtain rfl := Except.error.inj answered
    decide
  · exact absurd answered (by simp [mqttInitPacketHeader])

/-- The client on a new network connection. -/
def Client.opened (c : Client) (options : MQTTConnectParams) : Client :=
  ({ c with options, output := [] } : Client).lock .writeBuf

/-- A CONNECT that is not serialised leaves a new connection unused. -/
theorem sendConnect_unserialized {c : Client} {options : MQTTConnectParams}
    {env : ConnectEnv} {ret : IoTError} (opened : env.networkRet = .successRet)
    (answered : serializeConnectPacket (c.opened options).writeBuf
      uiotMqttTxBufLen options = .error ret) :
    sendConnect c options env =
      ((c.opened options).unlock .writeBuf, ret) := by
  refine (if_neg (not_not.mpr opened)).trans ?_
  split
  · rename_i other found
    obtain rfl := Except.error.inj (found.symm.trans answered)
    rfl
  · rename_i memory len found
    cases found.symm.trans answered

/-- A serialised CONNECT is sent on the new connection. -/
theorem sendConnect_serialized {c : Client} {options : MQTTConnectParams}
    {env : ConnectEnv} {memory : Memory} {len : Nat}
    (opened : env.networkRet = .successRet)
    (answered : serializeConnectPacket (c.opened options).writeBuf
      uiotMqttTxBufLen options = .ok (memory, len)) :
    let sent := sendMqttPacket { c.opened options with writeBuf := memory } len
      env.writes
    sendConnect c options env = (sent.1.unlock .writeBuf, sent.2) := by
  refine (if_neg (not_not.mpr opened)).trans ?_
  split
  · rename_i other found
    cases found.symm.trans answered
  · rename_i memory' len' found
    obtain ⟨rfl, rfl⟩ :=
      Prod.mk.inj (Except.ok.inj (found.symm.trans answered))
    rfl

/-- The network connection of an attempt is refused, or CONNECT is sent on a
new one. -/
theorem sendConnect_cases (c : Client) {options : MQTTConnectParams}
    (env : ConnectEnv) (lengthFits : options.LengthFits) :
    let after := sendConnect c options env
    (env.networkRet ≠ .successRet ∧ after.2 ≠ .successRet ∧
        after.1 = { c with options }) ∨
      (env.networkRet = .successRet ∧
        after.1.isConnected = c.isConnected ∧
        ((after.2 ≠ .successRet ∧ after.1.output = []) ∨
          ∃ sending : Sending,
            sending.Offers (connectBodyLen options) env.writes ∧
              after.1.output = sending.bytes ∧
              (after.2 = .successRet → sending.bytes = sending.packet.bytes))) := by
  intro after
  by_cases refused : env.networkRet ≠ .successRet
  · have after_eq : after = ({ c with options }, env.networkRet) :=
      if_pos refused
    rw [after_eq]
    exact .inl ⟨refused, refused, rfl⟩
  have opened : env.networkRet = .successRet := not_not.mp refused
  let fresh := c.opened options
  refine .inr ⟨opened, ?_⟩
  cases answered : serializeConnectPacket fresh.writeBuf uiotMqttTxBufLen
      options with
  | error ret =>
      have after_eq : after = (fresh.unlock .writeBuf, ret) :=
        sendConnect_unserialized opened answered
      rw [after_eq]
      exact ⟨rfl, .inl ⟨serializeConnectPacket_error answered, rfl⟩⟩
  | ok answer =>
      obtain ⟨memory, len⟩ := answer
      have after_eq : after = _ := sendConnect_serialized opened answered
      obtain ⟨packet, typed, body, holds⟩ :=
        serializeConnectPacket_serializesTo fresh.writeBuf lengthFits memory len
          answered
      obtain rfl := holds.length_eq
      let sending : Sending :=
        ⟨memory, packet, env.writes, holds, .connect, typed⟩
      have success := sendMqttPacket_ret { fresh with writeBuf := memory }
        packet.bytes.length env.writes
      have sent := sendMqttPacket_fst { fresh with writeBuf := memory }
        packet.bytes.length env.writes
      have isConnected := congrArg Client.isConnected sent
      have output := congrArg Client.output sent
      dsimp only at after_eq isConnected output
      rw [after_eq]
      generalize sendMqttPacket { fresh with writeBuf := memory }
        packet.bytes.length env.writes = result at success isConnected output ⊢
      obtain ⟨next, ret⟩ := result
      refine ⟨isConnected, .inr ⟨sending, ⟨body, rfl⟩, output, fun done => ?_⟩⟩
      rw [Sending.bytes, sentCount_of_completes (success.mp done)]
      exact holds

theorem acceptConnection_output (c : Client) :
    (acceptConnection c).1.output = c.output := by
  unfold acceptConnection
  split
  · rfl
  split <;> rfl

/-! ## Disconnecting -/

/-- A connected client is disconnected, once DISCONNECT is sent if it can
be. -/
theorem uiotMqttDisconnect_cases (c : Client) (writes : List WriteOutcome) :
    let after := (uiotMqttDisconnect c writes).1
    after.isConnected = false ∧
      (after.output = c.output ∨
        c.isConnected = true ∧ ∃ sending : Sending,
          sending.Offers 0 writes ∧ after.output = c.output ++ sending.bytes) := by
  intro after
  cases connected : c.isConnected with
  | false =>
      have after_eq : after = c := by
        simp only [after, uiotMqttDisconnect, connected, Bool.not_false, if_true]
      rw [after_eq]
      exact ⟨connected, .inl rfl⟩
  | true =>
      have after_eq : after =
          { sendDisconnect c writes with
            isConnected := false
            wasManuallyDisconnected := true } := by
        simp only [after, uiotMqttDisconnect, connected, Bool.not_true,
          Bool.false_eq_true, if_false]
      rw [after_eq]
      refine ⟨rfl, ?_⟩
      unfold sendDisconnect
      dsimp only
      split
      · exact .inl rfl
      · rename_i memory len answered
        obtain ⟨packet, typed, body, holds⟩ :=
          serializePacketWithZeroPayload_serializesTo c.writeBuf .disconnect
            memory len answered
        obtain rfl := holds.length_eq
        refine .inr ⟨rfl, ⟨memory, packet, writes, holds, .disconnect, typed⟩,
          ⟨body, rfl⟩, ?_⟩
        exact congrArg Client.output (sendMqttPacket_fst
          { c.lock .writeBuf with writeBuf := memory } packet.bytes.length
          writes)

/-- A lost connection ends as a manual disconnect does. -/
theorem handleDisconnect_cases (c : Client) (writes : List WriteOutcome) :
    let after := (handleDisconnect c writes).1
    after.isConnected = (uiotMqttDisconnect c writes).1.isConnected ∧
      after.output = (uiotMqttDisconnect c writes).1.output := by
  intro after
  cases connected : c.isConnected with
  | false =>
      simp only [after, handleDisconnect, uiotMqttDisconnect, connected,
        Bool.not_false, if_true, and_self]
  | true =>
      simp only [after, handleDisconnect, connected, Bool.not_true,
        Bool.false_eq_true, if_false, Client.raise, and_self]

/-! ## Passes -/

/-- The attempts of a pass to send PINGREQ. -/
def YieldEnv.Pings (env : YieldEnv) (sending : Sending) : Prop :=
  ∃ attempt, sending.Offers 0 (env.pings attempt)

/-- `_mqtt_keep_alive` sends at most PINGREQ packets and may then give the
connection up. -/
theorem mqttKeepAlive_cases (c : Client) (env : YieldEnv) :
    let after := (mqttKeepAlive c env).1
    Client.Sends env.Pings c after ∨
      ∃ sent, Client.Sends env.Pings c sent ∧
        after = (handleDisconnect sent env.disconnectWrites).1 := by
  intro after
  have after_def : after = (mqttKeepAlive c env).1 := rfl
  unfold mqttKeepAlive at after_def
  split at after_def
  · exact .inl (after_def ▸ .refl c)
  split at after_def
  · exact .inl (after_def ▸ .refl c)
  split at after_def
  · exact .inr ⟨c, .refl c, after_def⟩
  dsimp only at after_def
  split at after_def
  · exact .inl (after_def ▸ .of_eq rfl rfl)
  rename_i memory len answered
  have sends := sendPing_sends (c := c.lock .writeBuf) answered env.pings
    (List.finRange 4)
  split at after_def
  · rename_i sent
    rw [sent] at sends
    rw [after_def]
    exact .inl ⟨sends.isConnected, sends.output⟩
  · rename_i next _ _ sent
    rw [sent] at sends
    exact .inr ⟨next.unlock .writeBuf, ⟨sends.isConnected, sends.output⟩,
      after_def⟩

/-- What follows a cycle sends at most PINGREQ packets and may then give the
connection up. -/
theorem afterCycle_cases (c : Client) (ret : IoTError) (env : YieldEnv) :
    let after := (afterCycle c ret env).1
    Client.Sends env.Pings c after ∨
      ∃ sent, Client.Sends env.Pings c sent ∧
        after = (handleDisconnect sent env.disconnectWrites).1 := by
  intro after
  have after_def : after = (afterCycle c ret env).1 := rfl
  unfold afterCycle at after_def
  split at after_def
  · dsimp only at after_def
    have sweeps : Client.Sends env.Pings c
        (uiotMqttSubInfoProc (uiotMqttPubInfoProc c env.pubIteratorAllocated)
          env.subIteratorAllocated) :=
      (uiotMqttPubInfoProc_sends ..).trans (uiotMqttSubInfoProc_sends ..)
    rw [after_def]
    rcases mqttKeepAlive_cases (uiotMqttSubInfoProc (uiotMqttPubInfoProc c
        env.pubIteratorAllocated) env.subIteratorAllocated) env with
      kept | ⟨sent, pings, lost⟩
    · exact .inl (sweeps.trans kept)
    · exact .inr ⟨sent, sweeps.trans pings, lost⟩
  split at after_def
  · exact .inr ⟨c, .refl c, after_def⟩
  split at after_def
  · exact .inl (after_def ▸ .refl c)
  · exact .inl (after_def ▸ .refl c)

theorem endPass_sends (kind : Sending → Prop) (c : Client) (ret : IoTError) :
    Client.Sends kind c (endPass c ret).1 := by
  unfold endPass
  split
  · dsimp only
    split <;> exact .of_eq rfl rfl
  split <;> exact .refl c

theorem afterAttempt_sends (kind : Sending → Prop) (c : Client)
    (ret : IoTError) : Client.Sends kind c (afterAttempt c ret).1 := by
  unfold afterAttempt
  split <;> exact .of_eq rfl rfl

/-- A pass of a connected client. -/
theorem yieldPass_of_connected {c : Client} (env : YieldEnv)
    (connected : c.isConnected = true) :
    let cycled := cycleForRead (c.tick env.elapsed) 0 env.cycle
    let next := afterCycle cycled.1 cycled.2.1 env
    yieldPass c env = endPass next.1 next.2 := by
  intro cycled next
  have alive : (!(c.tick env.elapsed).isConnected) = false := by
    simp [connected]
  rw [yieldPass]
  dsimp only
  rw [alive, if_neg (by decide)]

/-- A pass of a client that is not connected attempts to reconnect. -/
def Client.Attempts (c : Client) : Prop :=
  c.currentReconnectWaitInterval ≤ maxReconnectWaitInterval ∧
    c.reconnectDelayTimer.hasExpired c.clock = true

/-- A pass of a client that is not connected: it waits, or attempts to
reconnect. -/
theorem yieldPass_of_disconnected {c : Client} (env : YieldEnv)
    (disconnected : c.isConnected = false) :
    let ticked := c.tick env.elapsed
    let attempt := uiotMqttAttemptReconnect ticked env.reconnect
    (¬ticked.Attempts ∧ (yieldPass c env).1 = ticked) ∨
      (ticked.Attempts ∧
        (yieldPass c env).1 = (afterAttempt attempt.1 attempt.2).1) := by
  intro ticked attempt
  have lost : (!ticked.isConnected) = true := by
    simp [ticked, disconnected]
  rw [yieldPass]
  dsimp only
  rw [show (!(c.tick env.elapsed).isConnected) = true from lost, if_pos rfl]
  split
  · rename_i late
    exact .inl ⟨fun attempts => Nat.not_lt.mpr attempts.1 late, rfl⟩
  · rename_i early
    unfold handleReconnect
    cases expired : (c.tick env.elapsed).reconnectDelayTimer.hasExpired
        (c.tick env.elapsed).clock with
    | false =>
        refine .inl ⟨fun attempts => ?_, rfl⟩
        exact absurd (expired.symm.trans attempts.2) (by decide)
    | true => exact .inr ⟨⟨Nat.not_lt.mp early, expired⟩, rfl⟩

/-! ## Calls of a session -/

/-- A connection attempt that the server accepts. -/
def acceptedConnect : ConnectEnv :=
  ⟨.successRet, [.accepted uiotMqttTxBufLen], [arriving [0x20, 2, 0, 0]]⟩

/-- A pass in which nothing hinders what is sent. -/
def passWith (elapsed : Nat) (cycle : CycleEnv) (requests : RequestEnv) :
    YieldEnv where
  elapsed
  cycle
  pubIteratorAllocated := true
  subIteratorAllocated := true
  pings := fun _ => [.accepted uiotMqttTxBufLen]
  disconnectWrites := [.accepted uiotMqttTxBufLen]
  reconnect := ⟨acceptedConnect, fun _ => requests⟩

/-- A pass in which nothing arrives. -/
def quietPass (elapsed : Nat) : YieldEnv :=
  passWith elapsed (arriving []) unhindered

/-- A pass in which the peer shuts the connection down. -/
def lostPass : YieldEnv :=
  passWith 0 { arriving [] with net := ⟨[], [.failure .errTcpPeerShutdown]⟩ }
    unhindered

/-- The client with other nodes, clock and record of callbacks. -/
def Client.elsewhere (c : Client) (clock : Nat) (held : List Lock)
    (events : List MQTTEvent) (callbackLocks : List (List Lock))
    (freed : List Nat) (pubs : List UIoTPubInfo) (subs : List UIoTSubInfo) :
    Client :=
  { c with
    clock, held, events, callbackLocks, freed
    listPubWaitAck := pubs
    listSubWaitAck := subs }

section QuietPasses

variable {β : Type} (view : Client → β)

/-- The sweeps only change nodes and the record of callbacks. -/
theorem infoProcs_view
    (kept : ∀ (c : Client) clock held events callbackLocks freed pubs subs,
      view (c.elsewhere clock held events callbackLocks freed pubs subs) =
        view c) (c : Client) :
    view (uiotMqttSubInfoProc (uiotMqttPubInfoProc c true) true) = view c := by
  calc
    _ = view (uiotMqttPubInfoProc c true) :=
      subWaitAck.infoProc_eq_of_kept view
        (fun c infos => kept c c.clock c.held c.events c.callbackLocks c.freed
          c.listPubWaitAck infos)
        (fun c info => kept c c.clock c.held _ _ _ c.listPubWaitAck
          c.listSubWaitAck)
        (fun c mutex => kept c c.clock _ c.events c.callbackLocks c.freed
          c.listPubWaitAck c.listSubWaitAck)
        (fun c mutex => kept c c.clock _ c.events c.callbackLocks c.freed
          c.listPubWaitAck c.listSubWaitAck) _ _ true
    _ = view c :=
      pubWaitAck.infoProc_eq_of_kept view
        (fun c infos => kept c c.clock c.held c.events c.callbackLocks c.freed
          infos c.listSubWaitAck)
        (fun c info => kept c c.clock c.held _ _ c.freed c.listPubWaitAck
          c.listSubWaitAck)
        (fun c mutex => kept c c.clock _ c.events c.callbackLocks c.freed
          c.listPubWaitAck c.listSubWaitAck)
        (fun c mutex => kept c c.clock _ c.events c.callbackLocks c.freed
          c.listPubWaitAck c.listSubWaitAck) _ c true

/-- A quiet pass without a keep-alive interval changes nothing else on a
connected client. -/
theorem yieldPass_quietPass {c : Client} (elapsed : Nat)
    (connected : c.isConnected = true)
    (unattended : c.options.keepAliveInterval = 0)
    (kept : ∀ (c : Client) clock held events callbackLocks freed pubs subs,
      view (c.elsewhere clock held events callbackLocks freed pubs subs) =
        view c) :
    view (yieldPass c (quietPass elapsed)).1 = view c := by
  let ticked := c.tick elapsed
  let swept := uiotMqttSubInfoProc (uiotMqttPubInfoProc ticked true) true
  have options : swept.options.keepAliveInterval = 0 := by
    rw [infoProcs_view Client.options (fun _ _ _ _ _ _ _ _ => rfl)]
    exact unattended
  have cycled : cycleForRead ticked 0 (quietPass elapsed).cycle =
      (ticked, .successRet, 0) := rfl
  have idle : mqttKeepAlive swept (quietPass elapsed) = (swept, .successRet) :=
    if_pos options
  have next : afterCycle ticked .successRet (quietPass elapsed) =
      (swept, .successRet) := idle
  have pass : yieldPass c (quietPass elapsed) = (swept, .successRet, true) := by
    rw [yieldPass_of_connected _ connected,
      show (quietPass elapsed).elapsed = elapsed from rfl, cycled, next]
    rfl
  rw [pass]
  calc
    view swept = view ticked := infoProcs_view view kept ticked
    _ = view c := kept c (c.clock + elapsed) c.held c.events c.callbackLocks
      c.freed c.listPubWaitAck c.listSubWaitAck

end QuietPasses

end Mqtt
end UIoT
