import UIoT.Mqtt.PublishRace

/-!
# One thread at a time

Where no step of the other thread comes in between, the steps of publishing make
`uiot_mqtt_publish` and the turns of the sweep make `uiot_mqtt_pub_info_proc`,
as these are modelled on their own.
-/

namespace UIoT
namespace Mqtt
namespace Race

variable {race : Race}

/-! ## The sweep -/

/-- So many turns of the yielding thread lead to the client, the nodes and the
point of the thread. -/
def Turns (race : Race) (c : Client) (nodes : InfoNodes UIoTPubInfo)
    (yielder : Yielder) : Prop :=
  ∃ count after,
    Machine.run step (some race) (List.replicate count .turn) = some after ∧
      after.client = c ∧ after.pubs = nodes ∧ after.yielder = yielder

theorem Turns.of_goOn {next : Race} {c : Client}
    {nodes : InfoNodes UIoTPubInfo} {yielder : Yielder}
    (turned : race.goOn = some next) (rest : next.Turns c nodes yielder) :
    race.Turns c nodes yielder := by
  obtain ⟨count, after, ran, same⟩ := rest
  refine ⟨count + 1, after, ?_, same⟩
  rw [List.replicate_succ, Machine.run_cons]
  change Machine.run step race.goOn _ = _
  rw [turned, ran]

theorem Turns.refl (race : Race) :
    race.Turns race.client race.pubs race.yielder :=
  ⟨0, race, rfl, rfl, rfl, rfl⟩

theorem Turns.trans {c d : Client} {nodes others : InfoNodes UIoTPubInfo}
    {yielder final : Yielder} (first : race.Turns c nodes yielder)
    (second : ∀ middle : Race, middle.client = c → middle.pubs = nodes →
      middle.yielder = yielder → middle.Turns d others final) :
    race.Turns d others final := by
  obtain ⟨count, middle, ran, client, pubs, same⟩ := first
  obtain ⟨more, after, goes, ends⟩ := second middle client pubs same
  refine ⟨count + more, after, ?_, ends⟩
  rw [List.replicate_add, Machine.run_append, ran, goes]

/-- Without an event handler no event is raised. -/
theorem raise_unheard {c : Client} (unheard : c.eventHandler = false)
    (event : MQTTEvent) : c.raise event = c := by
  have silent : ¬c.eventHandler = true := by simp [unheard]
  rw [Client.raise, if_neg silent, if_neg silent]

/-- At an expired node the timer is started again while the mutex is released,
and the event is raised when it is taken again. -/
theorem expired_turns {iter : ListIterator} {node : Nat}
    {cell : ListNode (Option UIoTPubInfo)} {info : UIoTPubInfo}
    (found : race.pubs.nodes node = some cell) (val : cell.val = some info)
    {c : Client} {nodes : InfoNodes UIoTPubInfo}
    (told : expirePubInfo race.client node info race.pubs = some (c, nodes)) :
    ({ race with
      toNodeClient := race.toNodeClient.unlock .listPub
      yielder := .expired iter node } : Race).Turns c nodes
        (.sweeping iter (some node)) := by
  let restarted : UIoTPubInfo :=
    { info with
      pubStartTime :=
        .countdownMs race.client.clock race.client.commandTimeoutMs }
  let written : InfoNodes UIoTPubInfo :=
    race.pubs.write node { cell with val := some restarted }
  have done : race.pubs.setVal node (some restarted) = some written := by
    unfold LinkedList.setVal
    rw [found]
    rfl
  have told : some (((race.client.unlock .listPub).lock .listPub).raise
      (.publishTimeout info.msgId), written) = some (c, nodes) := by
    rw [← told]
    change _ = (race.pubs.setVal node (some restarted)).bind _
    rw [done]
    rfl
  obtain ⟨rfl, rfl⟩ := Prod.mk.inj (Option.some.inj told)
  let middle : Race :=
    { race with
      client := race.client.unlock .listPub
      pubs := written
      yielder := .restarted iter node }
  let client := ((race.client.unlock .listPub).lock .listPub).raise
    (.publishTimeout info.msgId)
  let last : Race :=
    { race with client, pubs := written, yielder := .sweeping iter (some node) }
  have reread : written.nodes node = some { cell with val := some restarted } :=
    Function.update_self ..
  have restarts : Race.goOn
      { race with
        toNodeClient := race.toNodeClient.unlock .listPub
        yielder := .expired iter node } = some middle := by
    change (race.pubs.nodes node).bind _ = _
    rw [found, Option.bind_some, val]
    change (race.pubs.setVal node (some restarted)).bind _ = _
    rw [done]
    rfl
  have relocks : middle.goOn = some last := by
    change middle.relock iter node = _
    unfold relock
    dsimp only
    split
    · change (written.nodes node).bind _ = _
      rw [reread]
      rfl
    · rename_i unheard
      have same : client = (race.client.unlock .listPub).lock .listPub :=
        raise_unheard (Bool.not_eq_true _ ▸ unheard) _
      simp only [last]
      rw [same]
      rfl
  exact .of_goOn restarts (.of_goOn relocks (.refl last))

/-- A turn of the sweep's loop. -/
theorem visit_turns {iter : ListIterator} {node : Nat}
    {cell : ListNode (Option UIoTPubInfo)}
    (found : race.pubs.nodes node = some cell) {drops : Bool} {c : Client}
    {nodes : InfoNodes UIoTPubInfo}
    (visited : pubWaitAck.visitNode expirePubInfo race.client node race.pubs =
      some (drops, c, nodes)) :
    (race.visit iter node cell.val).Turns c nodes
      (.sweeping iter (if drops then some node else none)) := by
  have stands : ∀ drops' : Bool,
      some (drops', race.client, race.pubs) = some (drops, c, nodes) →
      ({ race with
        yielder :=
          .sweeping iter (if drops' then some node else none) } : Race).Turns c
        nodes (.sweeping iter (if drops then some node else none)) := by
    intro drops' same
    obtain ⟨rfl, left⟩ := Prod.mk.inj (Option.some.inj same)
    obtain ⟨rfl, rfl⟩ := Prod.mk.inj left
    exact .refl _
  unfold WaitingList.visitNode at visited
  rw [found] at visited
  simp only [Option.bind_eq_bind, Option.bind_some] at visited
  unfold visit
  cases val : cell.val with
  | none =>
      rw [val] at visited
      exact stands true visited
  | some info =>
      rw [val] at visited
      dsimp only at visited ⊢
      by_cases invalid : info.nodeState = .invalid
      · rw [if_pos invalid]
        exact stands true ((if_pos invalid).symm.trans visited)
      rw [if_neg invalid]
      replace visited := (if_neg invalid).symm.trans visited
      by_cases offline : (!race.client.isConnected) = true
      · rw [if_pos offline] at visited ⊢
        exact stands false visited
      rw [if_neg offline] at visited ⊢
      by_cases waits : info.pubStartTime.leftMs race.client.clock > 0
      · rw [if_pos waits]
        exact stands false ((if_pos waits).symm.trans visited)
      rw [if_neg waits]
      replace visited := (if_neg waits).symm.trans visited
      obtain ⟨told, expired, same⟩ := Option.map_eq_some_iff.mp visited
      obtain ⟨rfl, rfl⟩ := Prod.mk.inj same
      exact expired_turns found val expired

/-- The turns of the loop do what the loop does. -/
theorem sweepLoop_turns {turns : Nat} {iter : ListIterator}
    {tempNode : Option Nat} {c : Client} {nodes : InfoNodes UIoTPubInfo}
    (sweeping : race.yielder = .sweeping iter tempNode)
    (swept : pubWaitAck.sweepLoop expirePubInfo turns iter tempNode race.client
      race.pubs = some (c, nodes)) :
    race.Turns (c.unlock .listPub) nodes .idle := by
  induction turns generalizing race iter tempNode with
  | zero => cases swept
  | succ turns inductionHypothesis =>
      unfold WaitingList.sweepLoop at swept
      simp only [Option.bind_eq_bind, Option.bind_eq_some_iff] at swept
      obtain ⟨⟨node, next⟩, iterated, kept, removed, rest⟩ := swept
      have taken : ∃ freed, race.removeTemp tempNode =
          some { race with pubs := kept, freed } := by
        cases tempNode with
        | none =>
            obtain rfl := Option.some.inj removed
            exact ⟨race.freed, rfl⟩
        | some temp =>
            refine ⟨temp :: race.freed, ?_⟩
            change (race.pubs.listRemove temp).bind _ = _
            have removed : race.pubs.listRemove temp = some kept := removed
            rw [removed]
            rfl
      obtain ⟨freed, taken⟩ := taken
      have goes : race.goOn = race.sweepTurn iter tempNode := by
        unfold goOn
        rw [sweeping]
      unfold sweepTurn at goes
      simp only [iterated, taken, Option.bind_eq_bind, Option.bind_some]
        at goes
      cases node with
      | none =>
          obtain ⟨rfl, rfl⟩ := Prod.mk.inj (Option.some.inj rest)
          exact .of_goOn goes (.refl _)
      | some node =>
          simp only [Option.bind_eq_some_iff] at rest
          obtain ⟨⟨drops, after, others⟩, visited, rest⟩ := rest
          have found : ∃ cell, kept.nodes node = some cell := by
            unfold WaitingList.visitNode at visited
            simp only [Option.bind_eq_bind, Option.bind_eq_some_iff] at visited
            obtain ⟨cell, found, -⟩ := visited
            exact ⟨cell, found⟩
          obtain ⟨cell, found⟩ := found
          simp only [found, Option.bind_some] at goes
          let middle : Race := { race with pubs := kept, freed }
          have visits : (middle.visit next node cell.val).Turns after others
              (.sweeping next (if drops then some node else none)) :=
            visit_turns found visited
          refine .of_goOn goes (visits.trans fun ready client pubs same => ?_)
          exact inductionHypothesis same (by rw [client, pubs]; exact rest)

/-- The yielding thread on its own sweeps the nodes as `uiot_mqtt_pub_info_proc`
does. -/
theorem sweep_alone (idle : race.yielder = .idle) {turns : Nat} {c : Client}
    {nodes : InfoNodes UIoTPubInfo} {iteratorAllocated : Bool}
    (swept : uiotMqttPubInfoProcNodes turns race.client race.pubs
      iteratorAllocated = some (c, nodes)) :
    ∃ next, race.act (.sweep iteratorAllocated) = some next ∧
      next.Turns c nodes .idle := by
  have acts : race.act (.sweep iteratorAllocated) =
      some (race.walk iteratorAllocated fun iter => .sweeping iter none) := by
    unfold act
    simp only [idle]
  refine ⟨_, acts, ?_⟩
  unfold uiotMqttPubInfoProcNodes WaitingList.infoProcNodes at swept
  unfold walk
  dsimp only at swept ⊢
  have stands :
      some ((race.client.lock .listPub).unlock .listPub, race.pubs) =
        some (c, nodes) →
      ({ race with
        toNodeClient := (race.toNodeClient.lock .listPub).unlock
          .listPub } : Race).Turns c nodes .idle := by
    intro same
    obtain ⟨rfl, rfl⟩ := Prod.mk.inj (Option.some.inj same)
    rw [← idle]
    exact .refl _
  by_cases empty : race.pubs.len = 0
  · rw [if_pos empty] at swept
    rw [if_pos (show (race.toNodeClient.lock .listPub).pubs.len = 0 from empty)]
    exact stands swept
  rw [if_neg empty] at swept
  rw [if_neg (show ¬(race.toNodeClient.lock .listPub).pubs.len = 0 from empty)]
  by_cases refused : (!iteratorAllocated) = true
  · rw [if_pos refused] at swept ⊢
    exact stands swept
  rw [if_neg refused] at swept ⊢
  simp only [Option.bind_eq_bind, Option.bind_eq_some_iff] at swept
  obtain ⟨⟨last, others⟩, looped, same⟩ := swept
  obtain ⟨rfl, rfl⟩ := Prod.mk.inj (Option.some.inj same)
  exact sweepLoop_turns rfl looped

/-! ## Publishing -/

/-- A packet that is sent ends the publishing, and one that is not leaves the
node to be taken back. -/
theorem send_of_success (race : Race) {c : Client} {node len : Nat}
    {writes : List WriteOutcome}
    (sent : sendMqttPacket race.client len writes = (c, .successRet)) :
    race.send node len writes =
      { race with client := c, publisher := .idle } := by
  unfold send
  rw [sent]

theorem send_of_failure (race : Race) {c : Client} {node len : Nat}
    {ret : IoTError} {writes : List WriteOutcome}
    (sent : sendMqttPacket race.client len writes = (c, ret))
    (failed : ret ≠ .successRet) :
    race.send node len writes =
      { race with client := c, publisher := .failed node } := by
  unfold send
  rw [sent]
  split
  · rename_i same
    exact absurd (Prod.mk.inj same).2 failed
  · rename_i same
    obtain ⟨rfl, -⟩ := Prod.mk.inj same
    rfl

section

variable {s next : NodeClient} {len node : Nat} {id : UInt16} {env : RequestEnv}

theorem publishSerializedNode_of_refused {ret : IoTError}
    (refused : maskPushPubInfoNode s len id env node =
      some (next, .error ret)) :
    publishSerializedNode s len id .qos1 env node =
      some (next.unlock .writeBuf, .error ret) := by
  unfold publishSerializedNode
  rw [if_neg (by decide), refused]
  rfl

theorem publishSerializedNode_of_success {c : Client}
    (pushed : maskPushPubInfoNode s len id env node = some (next, .ok node))
    (sent : sendMqttPacket next.client len env.writes = (c, .successRet)) :
    publishSerializedNode s len id .qos1 env node =
      some (({ next with client := c } : NodeClient).unlock .writeBuf,
        .ok id) := by
  unfold publishSerializedNode
  rw [if_neg (by decide), pushed, Option.bind_eq_bind, Option.bind_some]
  dsimp only
  rw [sent]

theorem publishSerializedNode_of_failure {c : Client} {ret : IoTError}
    (pushed : maskPushPubInfoNode s len id env node = some (next, .ok node))
    (sent : sendMqttPacket next.client len env.writes = (c, ret))
    (failed : ret ≠ .successRet) :
    publishSerializedNode s len id .qos1 env node =
      (removePubNode { next with client := c } node).map
        fun after => (after.unlock .writeBuf, .error ret) := by
  unfold publishSerializedNode
  rw [if_neg (by decide), pushed, Option.bind_eq_bind, Option.bind_some]
  dsimp only
  rw [sent]
  split
  · rename_i same
    exact absurd (Prod.mk.inj same).2 failed
  · rename_i same
    obtain ⟨rfl, rfl⟩ := Prod.mk.inj same
    cases removePubNode { next with client := c } node <;> rfl

end

/-- The publishing thread on its own does what `uiot_mqtt_publish` does behind
the serializer. -/
theorem publish_alone {entries : List (Nat × Option UIoTPubInfo)}
    (sound : race.Sound entries) (publisher : race.publisher = .idle)
    (yielder : race.yielder.locks = false) (len : Nat) (msgId : UInt16)
    (env : RequestEnv) :
    (Machine.run step (some race)
        [.push len msgId env, .send env.writes, .takeBack]).map
          (fun after => after.toNodeClient.unlock .writeBuf) =
      (publishSerializedNode race.toNodeClient len msgId .qos1 env
        race.heapTop).map Prod.fst := by
  have free := sound.locked_eq.trans yielder
  have pushes : step (some race) (.push len msgId env) =
      race.push len msgId env := by
    change race.act (.push len msgId env) = _
    unfold act
    simp only [publisher, free]
    rfl
  change (step (step (step (some race) (.push len msgId env)) _) _).map _ = _
  rw [pushes]
  unfold push
  rcases maskPushPubInfoNode_cases sound.accounted.consistent
    sound.accounted.nodes_heapTop len msgId env with
    ⟨ret, refused⟩ | ⟨-, pubs, info, -, -, -, -, done⟩
  · rw [publishSerializedNode_of_refused refused, refused]
    have stays : ∀ label, race.publisher = .idle → label = .takeBack ∨
        label = .send env.writes → step (some race) label = some race := by
      rintro label idle (rfl | rfl)
      · change race.act .takeBack = _
        unfold act
        simp only [idle]
      · change race.act (.send env.writes) = _
        unfold act
        simp only [idle]
    change (step (step (some race) _) _).map _ = _
    rw [stays _ publisher (.inr rfl), stays _ publisher (.inl rfl)]
    rfl
  · rw [done]
    let pushed : Race :=
      { race with
        pubs
        heapTop := race.heapTop + 1
        publisher := .sending race.heapTop len }
    change (step (some (pushed.send race.heapTop len env.writes)) _).map _ = _
    have held := sendMqttPacket_held race.client len env.writes
    rcases sent : sendMqttPacket race.client len env.writes with
      ⟨client, ret⟩
    rw [sent] at held
    by_cases success : ret = .successRet
    · subst success
      rw [pushed.send_of_success sent,
        publishSerializedNode_of_success done sent]
      rfl
    rw [pushed.send_of_failure sent success,
      publishSerializedNode_of_failure done sent success]
    let failed : Race :=
      { pushed with client, publisher := .failed race.heapTop }
    have stillFree : failed.locked = false := by
      unfold locked at free ⊢
      rw [← free]
      exact congrArg (fun held => decide (Lock.listPub ∈ held)) held
    have takes : step (some failed) .takeBack =
        failed.takeBack race.heapTop := by
      change (if failed.locked then some failed
        else failed.takeBack race.heapTop) = _
      rw [stillFree]
      rfl
    change (step (some failed) .takeBack).map _ = _
    rw [takes]
    unfold takeBack
    change _ = Option.map _ (Option.map _ (removePubNode failed.toNodeClient _))
    cases removePubNode failed.toNodeClient race.heapTop <;> rfl

end Race
end Mqtt
end UIoT
