import UIoT.Mqtt.LinkState

/-!
# What decides about connecting

Whether a client that has no connection opens one again is decided by its
connect options and by the flag of a manual disconnect.  Only connecting,
disconnecting and `uiot_mqtt_set_autoreconnect` write them; requests, incoming
packets, sweeps and pings leave them and the state of the connection alone.
-/

namespace UIoT
namespace Mqtt

/-- What decides whether the client may connect. -/
structure ConnectionTerms where
  isConnected : Bool
  wasManuallyDisconnected : Bool
  options : MQTTConnectParams

/-- The terms of a client. -/
def Client.terms (c : Client) : ConnectionTerms :=
  ⟨c.isConnected, c.wasManuallyDisconnected, c.options⟩

theorem Client.isConnected_eq {c after : Client}
    (kept : after.terms = c.terms) : after.isConnected = c.isConnected :=
  congrArg ConnectionTerms.isConnected kept

theorem Client.wasManuallyDisconnected_eq {c after : Client}
    (kept : after.terms = c.terms) :
    after.wasManuallyDisconnected = c.wasManuallyDisconnected :=
  congrArg ConnectionTerms.wasManuallyDisconnected kept

theorem Client.options_eq {c after : Client} (kept : after.terms = c.terms) :
    after.options = c.options :=
  congrArg ConnectionTerms.options kept

/-- The terms of a connection. -/
def Link.terms (link : Link) : ConnectionTerms :=
  ⟨link.isConnected, link.wasManuallyDisconnected, link.options⟩

/-! ## Sends and requests -/

theorem uiotMqttPublish_terms (c : Client) (topicName : CString)
    (params : PublishParams) (env : RequestEnv) :
    (uiotMqttPublish c topicName params env).1.terms = c.terms :=
  congrArg Link.terms (uiotMqttPublish_link ..)

theorem uiotMqttSubscribe_terms (c : Client) (topicFilter : CString)
    (params : SubscribeParams) (env : RequestEnv) :
    (uiotMqttSubscribe c topicFilter params env).1.terms = c.terms :=
  congrArg Link.terms (uiotMqttSubscribe_link ..)

theorem uiotMqttUnsubscribe_terms (c : Client) (topicFilter : CString)
    (env : RequestEnv) :
    (uiotMqttUnsubscribe c topicFilter env).1.terms = c.terms :=
  congrArg Link.terms (uiotMqttUnsubscribe_link ..)

theorem uiotMqttResubscribe_terms (c : Client)
    (envs : Fin maxSubTopics → RequestEnv) :
    (uiotMqttResubscribe c envs).1.terms = c.terms :=
  congrArg Link.terms (uiotMqttResubscribe_link ..)

/-! ## Packets -/

theorem Link.note_terms (link : Link) (type : MessageTypes) :
    (link.note type).terms = link.terms := by
  cases type <;> rfl

/-- A cycle decides nothing about connecting. -/
theorem cycleForRead_terms (c : Client) (packetType : UInt8)
    (env : CycleEnv) :
    (cycleForRead c packetType env).1.terms = c.terms := by
  have cycled := congrArg Link.terms (cycleForRead_link c packetType env)
  refine cycled.trans ?_
  split
  · rfl
  · exact Link.note_terms ..

/-! ## Sweeps and pings -/

theorem uiotMqttPubInfoProc_terms (c : Client) (iteratorAllocated : Bool) :
    (uiotMqttPubInfoProc c iteratorAllocated).terms = c.terms :=
  congrArg Link.terms (uiotMqttPubInfoProc_link ..)

theorem uiotMqttSubInfoProc_terms (c : Client) (iteratorAllocated : Bool) :
    (uiotMqttSubInfoProc c iteratorAllocated).terms = c.terms :=
  congrArg Link.terms (uiotMqttSubInfoProc_link ..)

theorem sendPing_terms (len : Nat) (pings : Fin 4 → List WriteOutcome)
    (attempts : List (Fin 4)) (c : Client) :
    (sendPing len pings attempts c).1.terms = c.terms :=
  congrArg Link.terms (sendPing_link ..)

/-! ## The loop of a yield -/

theorem afterAttempt_terms (c : Client) (ret : IoTError) :
    (afterAttempt c ret).1.terms = c.terms := by
  unfold afterAttempt
  split <;> rfl

theorem endPass_terms (c : Client) (ret : IoTError) :
    (endPass c ret).1.terms = c.terms := by
  unfold endPass
  split
  · dsimp only
    split <;> rfl
  split <;> rfl

/-! ## Connecting and disconnecting -/

/-- An attempt takes its options before it opens a connection. -/
theorem sendConnect_terms (c : Client) (options : MQTTConnectParams)
    (env : ConnectEnv) :
    (sendConnect c options env).1.terms = { c.terms with options } :=
  congrArg Link.terms (sendConnect_link c options env)

/-- Only an accepted connection changes the terms, and not the options. -/
theorem acceptConnection_terms (c : Client) :
    (acceptConnection c).1.terms = c.terms ∨
      (acceptConnection c).1.terms = ⟨true, false, c.options⟩ :=
  (acceptConnection_link c).imp (congrArg Link.terms) (congrArg Link.terms)

/-- A disconnect is manual if there was a connection. -/
theorem uiotMqttDisconnect_terms (c : Client) (writes : List WriteOutcome) :
    (uiotMqttDisconnect c writes).1.terms =
      ⟨false, c.wasManuallyDisconnected || c.isConnected, c.options⟩ := by
  have ended := congrArg Link.terms (uiotMqttDisconnect_link c writes)
  refine ended.trans ?_
  cases connected : c.isConnected with
  | false => simp [Link.terms, Client.link, connected]
  | true => simp [Link.terms, Client.link]

end Mqtt
end UIoT
