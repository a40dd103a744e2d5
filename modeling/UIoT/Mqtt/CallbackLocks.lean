import UIoT.Mqtt.Actions

/-!
# Mutexes held at callbacks

The mutexes are not recursive, so a callback that calls the client again must
find none of them taken.  The client calls its event handler with a mutex taken
for a refused subscription, for every UNSUBACK and for every timeout, and with
none taken otherwise.
-/

namespace UIoT
namespace Mqtt

/-! ## Callbacks of a function -/

/-- The mutexes are as before, and callbacks found these mutexes taken. -/
structure Client.CallsBack (c after : Client) (added : List (List Lock)) :
    Prop where
  held : after.held = c.held
  eventHandler : after.eventHandler = c.eventHandler
  callbackLocks : after.callbackLocks = c.callbackLocks ++ added

namespace Client.CallsBack

variable {c after last : Client} {added more : List (List Lock)}

theorem quiet (held : after.held = c.held)
    (eventHandler : after.eventHandler = c.eventHandler)
    (callbackLocks : after.callbackLocks = c.callbackLocks) :
    c.CallsBack after [] :=
  ⟨held, eventHandler, by rw [callbackLocks, List.append_nil]⟩

theorem refl (c : Client) : c.CallsBack c [] := quiet rfl rfl rfl

theorem trans (first : c.CallsBack after added)
    (second : after.CallsBack last more) : c.CallsBack last (added ++ more) :=
  ⟨second.held.trans first.held, second.eventHandler.trans first.eventHandler,
    by rw [second.callbackLocks, first.callbackLocks, List.append_assoc]⟩

/-- Quiet functions before and after do not matter. -/
theorem trans_quiet (first : c.CallsBack after added)
    (second : after.CallsBack last []) : c.CallsBack last added := by
  simpa using first.trans second

theorem quiet_trans (first : c.CallsBack after [])
    (second : after.CallsBack last added) : c.CallsBack last added := by
  simpa using first.trans second

end Client.CallsBack

/-- What an event finds taken, if there is an event handler. -/
def Client.locksSeen (c : Client) : List (List Lock) :=
  if c.eventHandler then [c.held] else []

theorem raise_callsBack (c : Client) (event : MQTTEvent) :
    c.CallsBack (c.raise event) c.locksSeen := by
  refine ⟨rfl, rfl, ?_⟩
  unfold Client.locksSeen Client.raise
  dsimp only
  split
  · rfl
  · rw [List.append_nil]

theorem free_callsBack (c : Client) (string : Option StoredString) :
    c.CallsBack (c.free string) [] :=
  .quiet rfl rfl rfl

/-- A section under a mutex. -/
theorem Client.CallsBack.locked {c after : Client} {mutex : Lock}
    {added : List (List Lock)} (inside : (c.lock mutex).CallsBack after added) :
    c.CallsBack (after.unlock mutex) added := by
  refine ⟨?_, inside.eventHandler, inside.callbackLocks⟩
  rw [Client.unlock, inside.held, Client.lock, List.erase_cons_head]

/-! ## Functions without callbacks -/

theorem sendMqttPacket_callsBack (c : Client) (len : Nat)
    (writes : List WriteOutcome) :
    c.CallsBack (sendMqttPacket c len writes).1 [] := by
  rw [sendMqttPacket_fst]
  exact .quiet rfl rfl rfl

theorem publishSerialized_callsBack {c : Client} {held : List Lock}
    (locked : c.held = .writeBuf :: held) (len : Nat) (id : UInt16) (qos : QoS)
    (env : RequestEnv) :
    let after := (publishSerialized c len id qos env).1
    after.held = held ∧ after.eventHandler = c.eventHandler ∧
      after.callbackLocks = c.callbackLocks := by
  intro after
  have after_def : after = (publishSerialized c len id qos env).1 := rfl
  have unlocked : ∀ next : Client, next.held = c.held →
      (next.unlock .writeBuf).held = held := by
    intro next same
    rw [Client.unlock, same, locked, List.erase_cons_head]
  unfold publishSerialized at after_def
  split at after_def
  · have sends := sendMqttPacket_callsBack c len env.writes
    split at after_def <;> rename_i send <;> rw [send] at sends <;>
      rw [after_def] <;>
      exact ⟨unlocked _ sends.held, sends.eventHandler,
        by simpa using sends.callbackLocks⟩
  · rcases maskPushPubInfoTo_cases c len id env with
      ⟨-, pushed⟩ | ⟨-, ret, refused⟩
    · rw [pushed] at after_def
      have sends := sendMqttPacket_callsBack
        { c with
          listPubWaitAck := c.listPubWaitAck ++ [c.pubInfo id]
          heapTop := c.heapTop + 1 } len env.writes
      dsimp only at sends after_def
      split at after_def <;> rename_i send <;> rw [send] at sends <;>
        rw [after_def]
      · exact ⟨unlocked _ sends.held, sends.eventHandler,
          by simpa using sends.callbackLocks⟩
      · exact ⟨unlocked (removePubInfo _ _) sends.held, sends.eventHandler,
          by simpa [removePubInfo] using sends.callbackLocks⟩
    · rw [refused] at after_def
      rw [after_def]
      exact ⟨unlocked c rfl, rfl, rfl⟩

theorem uiotMqttPublish_callsBack (c : Client) (topicName : CString)
    (params : PublishParams) (env : RequestEnv) :
    c.CallsBack (uiotMqttPublish c topicName params env).1 [] := by
  rcases requestChecked_cases c topicName params.qos
      (publishChecked c topicName params env) with
    ⟨-, publish⟩ | ⟨-, ret, refused⟩
  · rw [show uiotMqttPublish c topicName params env = _ from publish]
    unfold publishChecked
    dsimp only
    have start : ∃ numbered, (if params.qos = .qos1 then
        getNextPacketId (c.lock .writeBuf) else c.lock .writeBuf) = numbered ∧
        numbered.held = .writeBuf :: c.held ∧
        numbered.eventHandler = c.eventHandler ∧
        numbered.callbackLocks = c.callbackLocks := by
      refine ⟨_, rfl, ?_⟩
      split <;> exact ⟨rfl, rfl, rfl⟩
    obtain ⟨numbered, numbered_eq, held, handler, locks⟩ := start
    rw [numbered_eq]
    split
    · refine .quiet ?_ handler locks
      rw [Client.unlock, held, List.erase_cons_head]
    · rename_i memory len answered
      have rest := publishSerialized_callsBack
        (c := { numbered with writeBuf := memory }) held len
        (if params.qos = .qos1 then numbered.nextPacketId else params.id)
        params.qos env
      exact .quiet rest.1 (rest.2.1.trans handler) (rest.2.2.trans locks)
  · rw [show uiotMqttPublish c topicName params env = _ from refused]
    exact .refl c

theorem requestSerialized_callsBack {c : Client} (held : List Lock)
    (locked : c.held = .writeBuf :: held) (len : Nat) (packetId : UInt16)
    (type : MessageTypes) (handler : SubTopicHandle) (env : RequestEnv) :
    let after := (requestSerialized c len packetId type handler env).1
    after.held = held ∧ after.eventHandler = c.eventHandler ∧
      after.callbackLocks = c.callbackLocks := by
  intro after
  have after_def : after =
    (requestSerialized c len packetId type handler env).1 := rfl
  have unlocked : ∀ next : Client, next.held = c.held →
      (next.unlock .writeBuf).held = held := by
    intro next same
    rw [Client.unlock, same, locked, List.erase_cons_head]
  unfold requestSerialized at after_def
  rcases pushSubInfoTo_cases c packetId type handler env with
    ⟨-, pushed⟩ | ⟨-, ret, refused⟩
  · rw [pushed] at after_def
    have sends := sendMqttPacket_callsBack
      { c with
        listSubWaitAck := c.listSubWaitAck ++ [c.subInfo packetId type handler]
        heapTop := c.heapTop + 1 } len env.writes
    dsimp only at sends after_def
    split at after_def <;> rename_i send <;> rw [send] at sends <;>
      rw [after_def]
    · exact ⟨unlocked _ sends.held, sends.eventHandler,
        by simpa using sends.callbackLocks⟩
    · exact ⟨unlocked (removeSubInfo _ _) sends.held, sends.eventHandler,
        by simpa [removeSubInfo] using sends.callbackLocks⟩
  · rw [refused] at after_def
    rw [after_def]
    exact ⟨unlocked c rfl, rfl, rfl⟩

theorem requestStored_callsBack (c : Client) (topicFilter : CString)
    (type : MessageTypes)
    (serialize : Memory → UInt16 → CString → Except IoTError (Memory × Nat))
    (handler : StoredString → SubTopicHandle) (env : RequestEnv) :
    c.CallsBack (requestStored c topicFilter type serialize handler env).1 []
      := by
  unfold requestStored
  split
  · exact .refl c
  · dsimp only [storeFilter]
    split
    · refine .quiet ?_ rfl rfl
      simp [getNextPacketId]
    · rename_i memory len answered
      have rest := requestSerialized_callsBack
        (c := { getNextPacketId
          (Client.lock { c with heapTop := c.heapTop + 1 } .writeBuf) with
          writeBuf := memory }) c.held rfl len
        (getNextPacketId (Client.lock { c with heapTop := c.heapTop + 1 }
          .writeBuf)).nextPacketId type (handler ⟨c.heapTop, topicFilter⟩) env
      exact .quiet rest.1 rest.2.1 rest.2.2

theorem uiotMqttSubscribe_callsBack (c : Client) (topicFilter : CString)
    (params : SubscribeParams) (env : RequestEnv) :
    c.CallsBack (uiotMqttSubscribe c topicFilter params env).1 [] := by
  rcases requestChecked_cases c topicFilter params.qos
      (subscribeChecked c topicFilter params env) with
    ⟨-, subscribe⟩ | ⟨-, ret, refused⟩
  · rw [show uiotMqttSubscribe c topicFilter params env = _ from subscribe]
    exact requestStored_callsBack ..
  · rw [show uiotMqttSubscribe c topicFilter params env = _ from refused]
    exact .refl c

theorem clearSlots_callsBack (topicFilter : CString)
    (slots : List (Fin maxSubTopics)) (c : Client) (suberExists : Bool) :
    c.CallsBack (clearSlots topicFilter slots c suberExists).1 [] := by
  induction slots generalizing c suberExists with
  | nil => exact .refl c
  | cons i slots inductionHypothesis =>
      unfold clearSlots
      split
      · have rest := inductionHypothesis
          { c.free (c.subHandles i).topicFilter with
            subHandles := Function.update c.subHandles i
              { c.subHandles i with topicFilter := none } } true
        exact ⟨rest.held, rest.eventHandler, rest.callbackLocks⟩
      · exact inductionHypothesis ..

theorem uiotMqttUnsubscribe_callsBack (c : Client) (topicFilter : CString)
    (env : RequestEnv) :
    c.CallsBack (uiotMqttUnsubscribe c topicFilter env).1 [] := by
  unfold uiotMqttUnsubscribe
  split
  · exact .refl c
  split
  · exact .refl c
  have clears := clearSlots_callsBack topicFilter (List.finRange maxSubTopics)
    c false
  generalize clearSlots topicFilter (List.finRange maxSubTopics) c false =
    cleared at clears ⊢
  obtain ⟨next, _ | _⟩ := cleared
  · exact clears
  · dsimp only
    split
    · exact clears
    · exact clears.trans_quiet (requestStored_callsBack ..)

/-- A packet sent under the mutex of the write buffer. -/
theorem sendLocked_callsBack (c : Client) (memory : Memory) (len : Nat)
    (writes : List WriteOutcome) :
    c.CallsBack ((sendMqttPacket { c.lock .writeBuf with writeBuf := memory }
      len writes).1.unlock .writeBuf) [] := by
  rw [sendMqttPacket_fst]
  refine .quiet ?_ rfl rfl
  rw [Client.unlock, Client.lock, List.erase_cons_head]

theorem sendAnswer_callsBack (c : Client) (packetType : MessageTypes)
    (packetId : UInt16) (writes : List WriteOutcome) :
    c.CallsBack (sendAnswer c packetType packetId writes).1 [] := by
  unfold sendAnswer
  dsimp only
  split
  · exact (Client.CallsBack.refl _).locked
  · exact sendLocked_callsBack ..

theorem sendConnect_callsBack (c : Client) (options : MQTTConnectParams)
    (env : ConnectEnv) : c.CallsBack (sendConnect c options env).1 [] := by
  unfold sendConnect
  dsimp only
  split
  · exact .quiet rfl rfl rfl
  have opens : c.CallsBack { c with options, output := [] } [] :=
    .quiet rfl rfl rfl
  refine opens.quiet_trans ?_
  split
  · exact (Client.CallsBack.refl _).locked
  · exact sendLocked_callsBack ..

theorem acceptConnection_callsBack (c : Client) :
    c.CallsBack (acceptConnection c).1 [] := by
  unfold acceptConnection
  split
  · exact .refl c
  split <;> exact .quiet rfl rfl rfl

theorem sendDisconnect_callsBack (c : Client) (writes : List WriteOutcome) :
    c.CallsBack (sendDisconnect c writes) [] := by
  unfold sendDisconnect
  dsimp only
  split
  · exact (Client.CallsBack.refl _).locked
  · exact sendLocked_callsBack ..

theorem uiotMqttDisconnect_callsBack (c : Client) (writes : List WriteOutcome) :
    c.CallsBack (uiotMqttDisconnect c writes).1 [] := by
  unfold uiotMqttDisconnect
  split
  · exact .refl c
  · exact (sendDisconnect_callsBack c writes).trans_quiet (.quiet rfl rfl rfl)

theorem endPass_callsBack (c : Client) (ret : IoTError) :
    c.CallsBack (endPass c ret).1 [] := by
  unfold endPass
  split
  · dsimp only
    split <;> exact .quiet rfl rfl rfl
  split <;> exact .refl c

/-! ## Functions that call back -/

/-- A connection that is given up is reported with no mutex taken. -/
theorem handleDisconnect_callsBack (c : Client) (writes : List WriteOutcome) :
    ∃ added, c.CallsBack (handleDisconnect c writes).1 added ∧
      (added = [] ∨ added = c.locksSeen) := by
  unfold handleDisconnect
  split
  · exact ⟨[], .refl c, .inl rfl⟩
  · have ends := uiotMqttDisconnect_callsBack c writes
    have raises := raise_callsBack (uiotMqttDisconnect c writes).1 .disconnect
    have seen : (uiotMqttDisconnect c writes).1.locksSeen = c.locksSeen := by
      unfold Client.locksSeen
      rw [ends.held, ends.eventHandler]
    rw [seen] at raises
    have both := ends.quiet_trans raises
    exact ⟨_, both.trans_quiet (.quiet rfl rfl rfl), .inr rfl⟩

theorem sendPing_callsBack (len : Nat) (pings : Fin 4 → List WriteOutcome)
    (attempts : List (Fin 4)) (c : Client) :
    c.CallsBack (sendPing len pings attempts c).1 [] := by
  induction attempts generalizing c with
  | nil => exact .refl c
  | cons attempt attempts inductionHypothesis =>
      have sends := sendMqttPacket_callsBack c len (pings attempt)
      unfold sendPing
      split
      · rename_i sent
        rw [sent] at sends
        exact sends
      · rename_i sent
        rw [sent] at sends
        exact sends.trans_quiet (inductionHypothesis _)

theorem mqttKeepAlive_callsBack (c : Client) (env : YieldEnv) :
    ∃ added, c.CallsBack (mqttKeepAlive c env).1 added ∧
      (added = [] ∨ added = c.locksSeen) := by
  unfold mqttKeepAlive
  split
  · exact ⟨[], .refl c, .inl rfl⟩
  split
  · exact ⟨[], .refl c, .inl rfl⟩
  split
  · exact handleDisconnect_callsBack c env.disconnectWrites
  dsimp only
  split
  · exact ⟨[], (Client.CallsBack.refl _).locked, .inl rfl⟩
  rename_i memory len answered
  have sends := sendPing_callsBack len env.pings (List.finRange 4)
    { c.lock .writeBuf with writeBuf := memory }
  split
  · rename_i next sent
    rw [sent] at sends
    have inside : c.CallsBack (next.unlock .writeBuf) [] := by
      refine Client.CallsBack.locked ?_
      exact ⟨sends.held, sends.eventHandler, sends.callbackLocks⟩
    exact ⟨[], inside.trans_quiet (.quiet rfl rfl rfl), .inl rfl⟩
  · rename_i next ret different sent
    rw [sent] at sends
    have inside : c.CallsBack (next.unlock .writeBuf) [] := by
      refine Client.CallsBack.locked ?_
      exact ⟨sends.held, sends.eventHandler, sends.callbackLocks⟩
    obtain ⟨added, ends, kind⟩ :=
      handleDisconnect_callsBack (next.unlock .writeBuf) env.disconnectWrites
    have seen : (next.unlock .writeBuf).locksSeen = c.locksSeen := by
      unfold Client.locksSeen
      rw [inside.held, inside.eventHandler]
    rw [seen] at kind
    exact ⟨added, inside.quiet_trans ends, kind⟩

theorem afterAttempt_callsBack (c : Client) (ret : IoTError) :
    ∃ added, c.CallsBack (afterAttempt c ret).1 added ∧
      (added = [] ∨ added = c.locksSeen) := by
  unfold afterAttempt
  split
  · exact ⟨_, raise_callsBack c .reconnect, .inr rfl⟩
  · exact ⟨[], .quiet rfl rfl rfl, .inl rfl⟩

/-! ## Sweeps -/

namespace WaitingList

variable {Info : Type} {list : WaitingList Info}

/-- A timeout raises one event, and nodes are stored without callbacks. -/
structure RaisesTimeouts (list : WaitingList Info) : Prop where
  setNodes : ∀ (c : Client) infos, c.CallsBack (list.setNodes c infos) []
  timeOut : ∀ (c : Client) info,
    c.CallsBack (list.timeOut c info) c.locksSeen

/-- The loop calls back once for every expired node. -/
theorem infoLoop_callsBack (lawful : list.Lawful)
    (raises : list.RaisesTimeouts) (infos : List Info) (c : Client) :
    c.CallsBack (list.infoLoop infos c)
      ((infos.filter (list.expires c)).flatMap fun _ => c.locksSeen) := by
  induction infos generalizing c with
  | nil => exact .refl c
  | cons info infos inductionHypothesis =>
      have seen : ∀ {next : Client} {added : List (List Lock)},
          c.CallsBack next added → next.isConnected = c.isConnected →
          next.clock = c.clock →
            next.CallsBack (list.infoLoop infos next)
              ((infos.filter (list.expires c)).flatMap fun _ =>
                c.locksSeen) := by
        intro next added calls isConnected clock
        have rest := inductionHypothesis next
        have sameExpires : list.expires next = list.expires c := by
          funext other
          rw [expires, expires, isConnected, clock]
        have sameSeen : next.locksSeen = c.locksSeen := by
          unfold Client.locksSeen
          rw [calls.held, calls.eventHandler]
        rwa [sameExpires, sameSeen] at rest
      have removes : ∀ next : Client,
          next.CallsBack (list.remove next info) [] :=
        fun next => raises.setNodes next _
      unfold infoLoop
      split
      · rename_i invalid
        have stale : list.expires c info = false := by
          simp [expires, invalid]
        rw [List.filter_cons_of_neg (by simp [stale])]
        exact (removes c).quiet_trans (seen (removes c)
          (lawful.isConnected_setNodes c _) (lawful.clock_setNodes c _))
      rename_i valid
      have normal : list.nodeState info = .normal := by
        cases state : list.nodeState info with
        | normal => rfl
        | invalid => exact absurd state valid
      split
      · rename_i offline
        have waits : list.expires c info = false := by
          simp only [Bool.not_eq_true'] at offline
          simp [expires, offline]
        rw [List.filter_cons_of_neg (by simp [waits])]
        exact inductionHypothesis c
      rename_i online
      split
      · rename_i early
        have waits : list.expires c info = false := by
          simp [expires, Nat.ne_of_gt early]
        rw [List.filter_cons_of_neg (by simp [waits])]
        exact inductionHypothesis c
      · rename_i late
        have expired : list.expires c info = true := by
          simp only [Bool.not_eq_true', Bool.not_eq_false] at online
          simpa [expires, normal, online] using late
        rw [List.filter_cons_of_pos expired, List.flatMap_cons]
        have timesOut := (raises.timeOut c info).trans_quiet
          (removes (list.timeOut c info))
        refine timesOut.trans (seen timesOut ?_ ?_)
        · exact (lawful.isConnected_setNodes _ _).trans
            (lawful.isConnected_timeOut c info)
        · exact (lawful.clock_setNodes _ _).trans
            (lawful.clock_timeOut c info)

/-- A sweep calls back under its mutex, once for every expired node. -/
theorem infoProc_callsBack (lawful : list.Lawful)
    (raises : list.RaisesTimeouts) (mutex : Lock) (c : Client) :
    c.CallsBack (list.infoProc mutex c true)
      (((list.nodes c).reverse.filter (list.expires c)).flatMap fun _ =>
        (c.lock mutex).locksSeen) := by
  have loop := infoLoop_callsBack lawful raises (list.nodes c).reverse
    (c.lock mutex)
  rw [infoProc, if_pos rfl]
  exact loop.locked

end WaitingList

theorem raisesTimeouts_pubWaitAck : pubWaitAck.RaisesTimeouts :=
  ⟨fun _ _ => .quiet rfl rfl rfl, fun c _ => raise_callsBack c _⟩

theorem raisesTimeouts_subWaitAck : subWaitAck.RaisesTimeouts := by
  refine ⟨fun _ _ => .quiet rfl rfl rfl, fun c info => ?_⟩
  exact (raise_callsBack c info.timeoutEvent).trans_quiet (.quiet rfl rfl rfl)

/-! ## Packets -/

/-- All callbacks found no mutex taken. -/
def NoneTaken (added : List (List Lock)) : Prop := ∀ locks ∈ added, locks = []

theorem noneTaken_nil : NoneTaken [] := by
  intro locks mem
  exact absurd mem List.not_mem_nil

theorem noneTaken_locksSeen {c : Client} (free : c.held = []) :
    NoneTaken c.locksSeen := by
  intro locks mem
  unfold Client.locksSeen at mem
  split at mem
  · exact (List.mem_singleton.mp mem).trans free
  · exact absurd mem List.not_mem_nil

/-- An event under a mutex finds it taken. -/
theorem noneTaken_lock_iff (c : Client) (mutex : Lock) :
    NoneTaken (c.lock mutex).locksSeen ↔ c.eventHandler = false := by
  unfold NoneTaken Client.locksSeen
  cases handler : c.eventHandler <;> simp [handler]

theorem maskSubInfoFrom_callsBack (c : Client) (packetId : UInt16)
    (initial : SubTopicHandle) (iteratorAllocated : Bool) :
    c.CallsBack (maskSubInfoFrom c packetId initial iteratorAllocated).1 [] := by
  unfold maskSubInfoFrom
  dsimp only
  split <;> refine .quiet ?_ rfl rfl <;>
    rw [Client.unlock, Client.lock, List.erase_cons_head]

theorem handlePubackPacket_callsBack {c : Client} (env : CycleEnv)
    (free : c.held = []) :
    ∃ added, c.CallsBack (handlePubackPacket c env).1 added ∧
      NoneTaken added := by
  unfold handlePubackPacket
  split
  · exact ⟨[], .refl c, noneTaken_nil⟩
  · rename_i ack _
    have masks : c.CallsBack (maskPubInfoFrom c ack.packetId
        env.iteratorAllocated) [] := by
      unfold maskPubInfoFrom
      dsimp only
      split <;> refine .quiet ?_ rfl rfl <;>
        rw [Client.unlock, Client.lock, List.erase_cons_head]
    exact ⟨_, masks.quiet_trans (raise_callsBack _ _),
      noneTaken_locksSeen (masks.held.trans free)⟩

/-- The event of a refused subscription is raised before the mutex is released,
that of an accepted one behind. -/
theorem installHandle_callsBack {c m : Client} (packetId : UInt16)
    (subHandle : SubTopicHandle) (subNack : Bool) (free : c.held = [])
    (locked : (c.lock .generic).CallsBack m []) :
    ∃ added,
      c.CallsBack (installHandle m packetId subHandle subNack).1 added ∧
        (NoneTaken added ↔ (c.eventHandler = true → subNack = true →
          subHandle.topicFilter = none)) := by
  have unlocked : c.CallsBack (m.unlock .generic) [] := locked.locked
  have raised : ∀ next : Client, c.CallsBack next [] →
      c.CallsBack (next.raise (.subscribeSuccess packetId)) next.locksSeen ∧
        NoneTaken next.locksSeen := fun next quiet =>
    ⟨quiet.quiet_trans (raise_callsBack next _),
      noneTaken_locksSeen (quiet.held.trans free)⟩
  unfold installHandle
  split
  · rename_i missing
    exact ⟨[], unlocked, iff_of_true noneTaken_nil fun _ _ => missing⟩
  rename_i filter
  split
  · rename_i refused
    refine ⟨(c.lock .generic).locksSeen, ?_, ?_⟩
    · have raises := raise_callsBack m (.subscribeNack packetId)
      have seen : m.locksSeen = (c.lock .generic).locksSeen := by
        unfold Client.locksSeen
        rw [locked.held, locked.eventHandler]
      rw [seen] at raises
      exact ((locked.quiet_trans raises).trans_quiet
        (free_callsBack _ subHandle.topicFilter)).locked
    · rw [noneTaken_lock_iff]
      cases handler : c.eventHandler with
      | false => exact iff_of_true rfl fun absent => absurd absent (by decide)
      | true =>
          exact iff_of_false (by decide) fun all => filter (all rfl refused)
  · rename_i accepted
    have positive : ∀ {none : Prop}, none → (none ↔ (c.eventHandler = true →
        subNack = true → subHandle.topicFilter = .none)) :=
      fun holds => iff_of_true holds fun _ refused => absurd refused accepted
    split
    · obtain ⟨calls, taken⟩ := raised
        ((m.free subHandle.topicFilter).unlock .generic)
        ⟨unlocked.held, unlocked.eventHandler, unlocked.callbackLocks⟩
      exact ⟨_, calls, positive taken⟩
    · exact ⟨[], unlocked, positive noneTaken_nil⟩
    · rename_i i _
      obtain ⟨calls, taken⟩ := raised
        (Client.unlock { m with
          subHandles := Function.update m.subHandles i subHandle } .generic)
        ⟨unlocked.held, unlocked.eventHandler, unlocked.callbackLocks⟩
      exact ⟨_, calls, positive taken⟩

theorem handlePublishPacket_callsBack {c : Client} (env : CycleEnv)
    (free : c.held = []) :
    ∃ added, c.CallsBack (handlePublishPacket c env).1 added ∧
      NoneTaken added := by
  have delivers : ∀ before message, ∃ added,
      c.CallsBack (deliverMessage c before message) added ∧
        NoneTaken added := by
    intro before message
    have quiet : c.CallsBack ((c.lock .generic).unlock .generic) [] :=
      (Client.CallsBack.refl _).locked
    unfold deliverMessage
    dsimp only
    split
    · rename_i messageHandler data _
      refine ⟨[[]], ⟨quiet.held, rfl, ?_⟩, by simp [NoneTaken]⟩
      rw [Client.deliver, quiet.held, free]
      rfl
    · exact ⟨_, quiet.quiet_trans (raise_callsBack _ _),
        noneTaken_locksSeen (quiet.held.trans free)⟩
  unfold handlePublishPacket
  split
  · exact ⟨[], .refl c, noneTaken_nil⟩
  · rename_i packet _
    dsimp only
    obtain ⟨added, calls, taken⟩ := delivers env.beforeTopic
      ⟨packet, (fixTopic c.readBuf packet env.behindTopic).1,
        (fixTopic c.readBuf packet env.behindTopic).2⟩
    split
    · exact ⟨added, calls, taken⟩
    · exact ⟨added, calls.trans_quiet (sendAnswer_callsBack ..), taken⟩

theorem handlePubrecPacket_callsBack (c : Client) (env : CycleEnv) :
    c.CallsBack (handlePubrecPacket c env).1 [] := by
  unfold handlePubrecPacket
  split
  · exact .refl c
  · exact sendAnswer_callsBack ..

/-- What is received asks for no event under a mutex. -/
def Received.Unlocked (c : Client) (iteratorAllocated : Bool) : Received → Prop
  | .suback packet =>
      c.eventHandler = true → Books.subNack packet = true →
        (c.books.maskedHandler packet.packetId .zero
          iteratorAllocated).topicFilter = none
  | .unsuback _ => c.eventHandler = false
  | _ => True

theorem handlePacket_callsBack {c : Client} (type : MessageTypes)
    (env : CycleEnv) (free : c.held = []) :
    ∃ added, c.CallsBack (handlePacket c type env).1 added ∧
      (NoneTaken added ↔
        (decoded c.readBuf type).Unlocked c env.iteratorAllocated) := by
  have positive : ∀ {after : Client} {received : Received},
      (∃ added, c.CallsBack after added ∧ NoneTaken added) →
        received.Unlocked c env.iteratorAllocated →
        ∃ added, c.CallsBack after added ∧
          (NoneTaken added ↔ received.Unlocked c env.iteratorAllocated) :=
    fun ⟨added, calls, taken⟩ unlocked =>
      ⟨added, calls, iff_of_true taken unlocked⟩
  cases type with
  | puback =>
      refine positive (handlePubackPacket_callsBack env free) ?_
      unfold decoded
      dsimp only
      split <;> trivial
  | suback =>
      unfold handlePacket handleSubackPacket decoded
      dsimp only
      cases (deserializeSubackPacket c.readBuf uiotMqttRxBufLen 1).ret with
      | error ret => exact positive ⟨[], .refl c, noneTaken_nil⟩ trivial
      | ok packet =>
          have masks := maskSubInfoFrom_callsBack (c.lock .generic)
            packet.packetId .zero env.iteratorAllocated
          have handler := (maskSubInfoFrom_eq (c.lock .generic) packet.packetId
            .zero env.iteratorAllocated).2
          dsimp only
          generalize maskSubInfoFrom (c.lock .generic) packet.packetId .zero
            env.iteratorAllocated = masked at masks handler ⊢
          obtain ⟨next, subHandle⟩ := masked
          obtain ⟨added, calls, exact'⟩ := installHandle_callsBack
            packet.packetId subHandle (Books.subNack packet) free masks
          refine ⟨added, calls, exact'.trans ?_⟩
          rw [show subHandle = _ from handler]
          rfl
  | unsuback =>
      unfold handlePacket handleUnsubackPacket decoded
      dsimp only
      cases (deserializeUnsubackPacket c.readBuf uiotMqttRxBufLen).2 with
      | error ret => exact positive ⟨[], .refl c, noneTaken_nil⟩ trivial
      | ok packetId =>
          have masks := maskSubInfoFrom_callsBack c packetId env.staleHandle
            env.iteratorAllocated
          dsimp only
          generalize maskSubInfoFrom c packetId env.staleHandle
            env.iteratorAllocated = masked at masks ⊢
          obtain ⟨next, messageHandler⟩ := masked
          have raises := raise_callsBack
            ((next.lock .generic).free messageHandler.topicFilter)
            (.unsubscribeSuccess packetId)
          have inside := (free_callsBack (next.lock .generic)
            messageHandler.topicFilter).quiet_trans raises
          refine ⟨_, masks.quiet_trans inside.locked, ?_⟩
          change NoneTaken (next.lock .generic).locksSeen ↔ _
          rw [noneTaken_lock_iff, show next.eventHandler = _ from
            masks.eventHandler]
          rfl
  | publish =>
      exact positive (handlePublishPacket_callsBack env free) trivial
  | pubrec =>
      exact positive ⟨[], handlePubrecPacket_callsBack c env, noneTaken_nil⟩
        trivial
  | _ => exact positive ⟨[], .refl c, noneTaken_nil⟩ trivial

theorem notePacket_callsBack (c : Client) (type : MessageTypes) :
    c.CallsBack (notePacket c type) [] := by
  cases type <;> exact .quiet rfl rfl rfl

/-- A cycle calls back with no mutex taken exactly when what it receives asks
for no event under one. -/
theorem cycleForRead_callsBack {c : Client} (packetType : UInt8)
    (env : CycleEnv) (free : c.held = []) :
    ∃ added, c.CallsBack (cycleForRead c packetType env).1 added ∧
      (NoneTaken added ↔
        (c.received env).Unlocked c env.iteratorAllocated) := by
  have reads : c.CallsBack (readCycle c env).1 [] := .quiet rfl rfl rfl
  have books : (readCycle c env).1.books = c.books := rfl
  have handles : ∀ type, ∃ added,
      (readCycle c env).1.CallsBack
        (handlePacket (readCycle c env).1 type env).1 added ∧
      (NoneTaken added ↔ (decoded (readCycle c env).1.readBuf type).Unlocked
        (readCycle c env).1 env.iteratorAllocated) :=
    fun type => handlePacket_callsBack type env (reads.held.trans free)
  unfold cycleForRead Client.received
  generalize readCycle c env = read at reads books handles ⊢
  obtain ⟨next, ret | packetType⟩ := read
  · refine ⟨[], ?_, iff_of_true noneTaken_nil trivial⟩
    split <;> simp_all
  · dsimp only
    cases receivedType packetType with
    | none => exact ⟨[], reads, iff_of_true noneTaken_nil trivial⟩
    | some type =>
        obtain ⟨added, calls, exact'⟩ := handles type
        refine ⟨added, (reads.quiet_trans calls).trans_quiet
          (notePacket_callsBack ..), exact'.trans ?_⟩
        dsimp only
        cases decoded next.readBuf type with
        | suback packet =>
            unfold Received.Unlocked
            rw [show next.books = c.books from books,
              show next.eventHandler = c.eventHandler from reads.eventHandler]
        | unsuback packetId =>
            unfold Received.Unlocked
            rw [show next.eventHandler = c.eventHandler from reads.eventHandler]
        | puback packetId => exact Iff.rfl
        | other => exact Iff.rfl

/-! ## Runs -/

/-- The conditions under which an action calls back with no mutex taken: there
is no event handler, or no refusal of a waiting subscription, no UNSUBACK and
no timeout. -/
def Action.Unlocked (c : Client) : Action → Prop
  | .cycle env => (c.received env).Unlocked c env.iteratorAllocated
  | .pubInfoProc iteratorAllocated =>
      c.eventHandler = true → iteratorAllocated = true →
        ∀ info ∈ c.listPubWaitAck, pubWaitAck.expires c info = false
  | .subInfoProc iteratorAllocated =>
      c.eventHandler = true → iteratorAllocated = true →
        ∀ info ∈ c.listSubWaitAck, subWaitAck.expires c info = false
  | _ => True

/-- The callbacks of a sweep find its mutex taken. -/
theorem noneTaken_sweep_iff {Info : Type} {list : WaitingList Info}
    (c : Client) (mutex : Lock) (infos : List Info) :
    NoneTaken ((infos.reverse.filter (list.expires c)).flatMap fun _ =>
        (c.lock mutex).locksSeen) ↔
      (c.eventHandler = true →
        ∀ info ∈ infos, list.expires c info = false) := by
  have seen := noneTaken_lock_iff c mutex
  cases handler : c.eventHandler with
  | false =>
      rw [handler] at seen
      refine iff_of_true (fun locks mem => ?_)
        fun absent => absurd absent (by decide)
      obtain ⟨info, -, mem⟩ := List.mem_flatMap.mp mem
      exact seen.mpr rfl locks mem
  | true =>
      have taken : (c.lock mutex).locksSeen = [mutex :: c.held] := by
        simp [Client.locksSeen, handler]
      rw [taken]
      constructor
      · intro none _ info mem
        cases expires : list.expires c info with
        | false => rfl
        | true =>
            have listed : mutex :: c.held ∈
                (infos.reverse.filter (list.expires c)).flatMap
                  fun _ => [mutex :: c.held] :=
              List.mem_flatMap.mpr ⟨info, List.mem_filter.mpr
                ⟨List.mem_reverse.mpr mem, expires⟩, List.mem_singleton_self _⟩
            exact absurd (none _ listed) (by simp)
      · intro waits locks mem
        obtain ⟨info, kept, -⟩ := List.mem_flatMap.mp mem
        obtain ⟨listed, expires⟩ := List.mem_filter.mp kept
        rw [waits rfl info (List.mem_reverse.mp listed)] at expires
        exact absurd expires (by decide)

/-- An action calls back with no mutex taken exactly under its condition, and
releases what it takes. -/
theorem Client.act_callsBack {c : Client} (action : Action)
    (free : c.held = []) :
    ∃ added, c.CallsBack (c.act action) added ∧
      (NoneTaken added ↔ action.Unlocked c) := by
  have quiet : ∀ {after : Client}, c.CallsBack after [] →
      ∃ added, c.CallsBack after added ∧ (NoneTaken added ↔ True) :=
    fun calls => ⟨[], calls, iff_of_true noneTaken_nil trivial⟩
  have seen : ∀ {after : Client},
      (∃ added, c.CallsBack after added ∧
        (added = [] ∨ added = c.locksSeen)) →
      ∃ added, c.CallsBack after added ∧ (NoneTaken added ↔ True) := by
    rintro after ⟨added, calls, rfl | rfl⟩
    · exact ⟨[], calls, iff_of_true noneTaken_nil trivial⟩
    · exact ⟨_, calls, iff_of_true (noneTaken_locksSeen free) trivial⟩
  cases action with
  | publish topicName params env =>
      exact quiet (uiotMqttPublish_callsBack c topicName params env)
  | subscribe topicFilter params env =>
      exact quiet (uiotMqttSubscribe_callsBack c topicFilter params env)
  | unsubscribe topicFilter env =>
      exact quiet (uiotMqttUnsubscribe_callsBack c topicFilter env)
  | cycle env => exact cycleForRead_callsBack 0 env free
  | pubInfoProc iteratorAllocated =>
      cases iteratorAllocated with
      | false =>
          exact ⟨[], .refl c, iff_of_true noneTaken_nil
            fun _ absent => absurd absent (by decide)⟩
      | true =>
          refine ⟨_, WaitingList.infoProc_callsBack lawful_pubWaitAck
            raisesTimeouts_pubWaitAck .listPub c, ?_⟩
          refine (noneTaken_sweep_iff c .listPub _).trans ?_
          exact ⟨fun all handler _ => all handler,
            fun all handler => all handler rfl⟩
  | subInfoProc iteratorAllocated =>
      cases iteratorAllocated with
      | false =>
          exact ⟨[], .refl c, iff_of_true noneTaken_nil
            fun _ absent => absurd absent (by decide)⟩
      | true =>
          refine ⟨_, WaitingList.infoProc_callsBack lawful_subWaitAck
            raisesTimeouts_subWaitAck .listSub c, ?_⟩
          refine (noneTaken_sweep_iff c .listSub _).trans ?_
          exact ⟨fun all handler _ => all handler,
            fun all handler => all handler rfl⟩
  | keepAlive env => exact seen (mqttKeepAlive_callsBack c env)
  | handleDisconnect writes => exact seen (handleDisconnect_callsBack c writes)
  | endPass ret => exact quiet (endPass_callsBack c ret)
  | sendConnect options env => exact quiet (sendConnect_callsBack c options env)
  | acceptConnection => exact quiet (acceptConnection_callsBack c)
  | afterAttempt ret => exact seen (afterAttempt_callsBack c ret)
  | disconnect writes => exact quiet (uiotMqttDisconnect_callsBack c writes)
  | setAutoreconnect value => exact quiet (.quiet rfl rfl rfl)
  | elapse duration => exact quiet (.quiet rfl rfl rfl)

/-- In a run no callback finds a mutex taken exactly when every action meets
its condition. -/
theorem run_noneTaken_iff (params : MQTTInitParams) (clock : Nat)
    (actions : List Action) :
    NoneTaken (Machine.run Client.act (uiotMqttInit params clock)
        actions).callbackLocks ↔
      Machine.Along Client.act (fun c action => action.Unlocked c)
        (uiotMqttInit params clock) actions := by
  have follows : ∀ (actions : List Action) (c : Client), c.held = [] →
      (NoneTaken (Machine.run Client.act c actions).callbackLocks ↔
        NoneTaken c.callbackLocks ∧
          Machine.Along Client.act (fun c action => action.Unlocked c) c
            actions) := by
    intro actions
    induction actions with
    | nil => simp
    | cons action actions inductionHypothesis =>
        intro c free
        obtain ⟨added, calls, exact'⟩ := c.act_callsBack action free
        rw [Machine.run_cons, inductionHypothesis _ (calls.held.trans free),
          Machine.Along.cons_iff, ← exact', ← and_assoc]
        refine and_congr_left fun _ => ?_
        rw [calls.callbackLocks]
        simp only [NoneTaken, List.mem_append, or_imp, forall_and]
  rw [follows actions _ rfl]
  exact and_iff_right noneTaken_nil

/-- A subscription is refused, and the event handler that hears of it is called
under `lock_generic`. -/
theorem refusedSubscription_takesLock :
    ¬∀ calls, NoneTaken (Machine.run Client.call (uiotMqttInit ⟨2000, true⟩ 0)
      calls).callbackLocks := by
  intro all
  have taken : [Lock.generic] ∈ (Machine.run Client.call
      (uiotMqttInit ⟨2000, true⟩ 0)
      [.connect plainOptions acceptedConnect,
        .subscribe textA ⟨.qos1, some 1, 0⟩ unhindered,
        .pass (passWith 0 (arriving [0x90, 3, 0, 2, 0x80])
          unhindered)]).callbackLocks := by decide +kernel
  exact absurd (all _ _ taken) (by simp)

end Mqtt
end UIoT
