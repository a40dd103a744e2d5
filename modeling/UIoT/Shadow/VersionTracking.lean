import UIoT.Shadow.Correlation

/-!
# The version a shadow client keeps

`topic_request_result_handler` takes the version of a message before it has
found out whether the message reports a success.  A message it abandons later
leaves its version behind.
-/

namespace UIoT
namespace Shadow

/-! ## Tracking -/

/-- The version of a message accepted as a successful reply or as a control
message. -/
def acceptedVersion (message : Message) : Option UInt32 :=
  (settlingMethod message).bind fun _ =>
    parseVersionNum (received message.payload)

/-- The version of a message that has a method and a version, whatever they
are. -/
def readVersion (message : Message) : Option UInt32 :=
  if message.topicLen ≤ 0 ∨ message.payload.length > uiotMqttRxBufLen + 1 then
    none
  else
    (parseShadowMethodType (received message.payload)).bind fun _ =>
      parseVersionNum (received message.payload)

/-- An accepted message sets the version; a message that is abandoned leaves the
version, the requests and the properties as they were. -/
def TracksVersion (s : UIoTShadow) : Label → Prop
  | .downstream _ message env =>
      let after := topicRequestResultHandler s message env
      match acceptedVersion message with
      | some version => after.version = version
      | none =>
          after.version = s.version ∧ after.requestList = s.requestList ∧
            after.propertyList = s.propertyList
  | _ => True

/-- A message that has a method and a version and is abandoned has the version
the client keeps already. -/
def BringsNoVersion (s : UIoTShadow) : Label → Prop
  | .downstream _ message _ =>
      acceptedVersion message = none →
        ∀ version, readVersion message = some version → version = s.version
  | _ => True

/-! ## One message -/

/-- Settling leaves the version alone. -/
theorem Books.settleEvery_version (b : Books) (iteratorAllocated : Bool)
    (ack : RequestAck) :
    (b.settleEvery iteratorAllocated ack).version = b.version := by
  have loop : ∀ (requests : List Request) (b : Books),
      (requests.foldl (Books.settle fun _ => some ack) b).version =
        b.version := by
    intro requests
    induction requests with
    | nil => exact fun _ => rfl
    | cons request requests inductionHypothesis =>
        exact fun b => inductionHypothesis (b.finish request ack)
  cases iteratorAllocated with
  | false => rfl
  | true => exact loop _ b

/-- Going through the requests leaves the version alone, and so does answering
a message. -/
theorem traverseList_handleDesired_version (s : UIoTShadow)
    (desired : Option (List UInt8)) (env : MessageEnv) (method : List UInt8) :
    (traverseList (handleDesired s desired env) env.traverseIteratorAllocated
        (handleRequestCallback method)).version = s.version := by
  have books := congrArg Books.version
    (traverseList_handleDesired_books s desired env method)
  rw [Books.settleEvery_version] at books
  refine books.trans ?_
  unfold booksBehindDelta
  split <;> rfl

/-- A downstream message sets the version once its method and its version are
read. -/
theorem topicRequestResultHandler_version (s : UIoTShadow) (message : Message)
    (env : MessageEnv) :
    let after := topicRequestResultHandler s message env
    after.version = (readVersion message).getD s.version ∧
      (acceptedVersion message = none →
        after.requestList = s.requestList ∧
          after.propertyList = s.propertyList) := by
  unfold topicRequestResultHandler readVersion acceptedVersion settlingMethod
  dsimp only
  by_cases topic : message.topicLen ≤ 0
  · rw [if_pos topic, if_pos (.inl topic)]
    exact ⟨rfl, fun _ => ⟨rfl, rfl⟩⟩
  rw [if_neg topic]
  by_cases long : message.payload.length > uiotMqttRxBufLen + 1
  · rw [if_pos long, if_pos (.inr long)]
    exact ⟨rfl, fun _ => ⟨rfl, rfl⟩⟩
  have arrives := not_or.mpr ⟨topic, long⟩
  rw [if_neg long, if_neg arrives, if_neg arrives]
  cases parseShadowMethodType (received message.payload) with
  | none => exact ⟨rfl, fun _ => ⟨rfl, rfl⟩⟩
  | some method =>
      cases parseVersionNum (received message.payload) with
      | none => exact ⟨rfl, fun _ => ⟨rfl, rfl⟩⟩
      | some version =>
          dsimp only
          rw [handleResult_eq, Option.filter_some]
          cases settles : Settles method (received message.payload) with
          | false => exact ⟨rfl, fun _ => ⟨rfl, rfl⟩⟩
          | true =>
              rw [if_pos rfl]
              exact ⟨traverseList_handleDesired_version .., nofun⟩

/-- The accepted version of a message is the one read from it. -/
theorem readVersion_of_accepted {message : Message} {version : UInt32}
    (accepted : acceptedVersion message = some version) :
    readVersion message = some version := by
  obtain ⟨method, settling, parsed⟩ := Option.bind_eq_some_iff.mp accepted
  unfold settlingMethod at settling
  dsimp only at settling
  split at settling
  · exact absurd settling nofun
  · rename_i arrives
    have found := (Option.filter_eq_some_iff.mp settling).1
    unfold readVersion
    rw [if_neg arrives, found]
    exact parsed

theorem tracksVersion_iff (s : UIoTShadow) (label : Label) :
    TracksVersion s label ↔ BringsNoVersion s label := by
  cases label with
  | downstream answers message env =>
      obtain ⟨version, kept⟩ := topicRequestResultHandler_version s message env
      unfold TracksVersion BringsNoVersion
      dsimp only
      cases accepted : acceptedVersion message with
      | some number =>
          rw [readVersion_of_accepted accepted] at version
          exact iff_of_true version nofun
      | none =>
          have rest := kept accepted
          rw [version]
          constructor
          · intro tracks _ number read
            have same := tracks.1
            rwa [read] at same
          · intro nothing
            refine ⟨?_, rest⟩
            cases read : readVersion message with
            | none => rfl
            | some number => exact nothing rfl number read
  | request => exact Iff.rfl
  | getReply => exact Iff.rfl
  | expire => exact Iff.rfl
  | properties => exact Iff.rfl
  | elsewhere => exact Iff.rfl

/-! ## Runs -/

/-- The version is tracked along a run exactly as long as no abandoned message
brings another version. -/
theorem step_tracksVersion_iff (s : UIoTShadow) (labels : List Label) :
    Machine.Along UIoTShadow.step TracksVersion s labels ↔
      Machine.Along UIoTShadow.step BringsNoVersion s labels :=
  Machine.Along.iff_of_invariant (fun _ => True)
    (fun state label _ => tracksVersion_iff state label)
    (fun _ _ _ _ => trivial) trivial labels

/-- A reply that reports a failure sets the version. -/
theorem failedReply_setsVersion :
    ¬∀ (s : UIoTShadow) (labels : List Label),
      Machine.Along UIoTShadow.step TracksVersion s labels := by
  intro all
  have along := all (sampleShadow true) [sampleDownstream 0 1]
  have abandoned : acceptedVersion (sampleReply 1) = none := by
    decide +kernel
  have tracks : TracksVersion (sampleShadow true) (sampleDownstream 0 1) :=
    along.1
  unfold TracksVersion sampleDownstream at tracks
  dsimp only at tracks
  rw [abandoned] at tracks
  exact absurd tracks.1 (by decide +kernel)

end Shadow
end UIoT
