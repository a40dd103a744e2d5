import UIoT.Mqtt.Runs

/-!
# Unsubscribing exactly

`uiot_mqtt_unsubscribe` empties slots before it knows whether its request can
be sent, and a filter with a wildcard level empties all of them.  A call is
exact where it empties occupied slots only if the request then goes out, and
only slots that hold the filter.
-/

namespace UIoT
namespace Mqtt

/-- The slot holds the filter. -/
def SubTopicHandle.Holds (handle : SubTopicHandle) (topicFilter : CString) :
    Prop :=
  ∃ stored, handle.topicFilter = some stored ∧ stored.text = topicFilter

/-- Exactly the slots that hold the filter are free afterwards that were not
before, and the others are what they were. -/
def FreesExactly (topicFilter : CString)
    (before after : Fin maxSubTopics → SubTopicHandle) : Prop :=
  ∀ i,
    ((before i).Holds topicFilter → (after i).topicFilter = none) ∧
      (¬(before i).Holds topicFilter → after i = before i)

/-- A call that fails leaves the table as it was, and one that succeeds frees
exactly the slots that hold the filter. -/
def UnsubscribesExactly (c : Client) (topicFilter : CString)
    (env : RequestEnv) : Prop :=
  let after := uiotMqttUnsubscribe c topicFilter env
  (∀ ret, after.2 = .error ret → after.1.subHandles = c.subHandles) ∧
    ∀ packetId, after.2 = .ok packetId →
      FreesExactly topicFilter c.subHandles after.1.subHandles

/-! ## What the loop empties -/

/-- A slot that holds the filter passes the test. -/
theorem clearsSlot_of_holds {handle : SubTopicHandle} {topicFilter : CString}
    (holds : handle.Holds topicFilter) :
    clearsSlot topicFilter handle = true := by
  obtain ⟨stored, occupied, rfl⟩ := holds
  simp [clearsSlot, occupied]

/-- Emptying a free slot changes nothing. -/
theorem clearedHandles_of_free {topicFilter : CString}
    {subHandles : Fin maxSubTopics → SubTopicHandle} {i : Fin maxSubTopics}
    (free : (subHandles i).topicFilter = none) :
    clearedHandles topicFilter subHandles i = subHandles i := by
  unfold clearedHandles
  split
  · rw [← free]
  · rfl

/-- The occupied slots the loop empties. -/
def EmptiesOccupied (topicFilter : CString) (handle : SubTopicHandle) : Prop :=
  handle.topicFilter ≠ none ∧ clearsSlot topicFilter handle = true

/-- The loop leaves the table as it was where it empties no occupied slot. -/
theorem clearedHandles_eq_iff (topicFilter : CString)
    (subHandles : Fin maxSubTopics → SubTopicHandle) :
    clearedHandles topicFilter subHandles = subHandles ↔
      ∀ i, ¬EmptiesOccupied topicFilter (subHandles i) := by
  constructor
  · intro same i ⟨occupied, clears⟩
    apply occupied
    rw [← congrFun same i, clearedHandles, if_pos clears]
  · intro none
    funext i
    by_cases free : (subHandles i).topicFilter = .none
    · exact clearedHandles_of_free free
    · exact if_neg fun clears => none i ⟨free, clears⟩

/-- The loop frees exactly the slots that hold the filter where these are the
only occupied ones it empties. -/
theorem freesExactly_clearedHandles_iff (topicFilter : CString)
    (subHandles : Fin maxSubTopics → SubTopicHandle) :
    FreesExactly topicFilter subHandles
        (clearedHandles topicFilter subHandles) ↔
      ∀ i, EmptiesOccupied topicFilter (subHandles i) →
        (subHandles i).Holds topicFilter := by
  constructor
  · intro frees i ⟨occupied, clears⟩
    by_contra other
    have same := (frees i).2 other
    apply occupied
    rw [← same, clearedHandles, if_pos clears]
  · intro only i
    constructor
    · intro holds
      rw [clearedHandles, if_pos (clearsSlot_of_holds holds)]
    · intro other
      by_cases free : (subHandles i).topicFilter = none
      · exact clearedHandles_of_free free
      · exact if_neg fun clears => other (only i ⟨free, clears⟩)

/-! ## Calls -/

/-- `uiot_mqtt_unsubscribe` is exact if and only if, for a filter it looks for,
every occupied slot it empties holds the filter, and it empties one only if the
client is connected and the request can be allocated, put on the waiting list
and sent. -/
theorem uiotMqttUnsubscribe_exactly_iff (c : Client) (topicFilter : CString)
    (env : RequestEnv) :
    UnsubscribesExactly c topicFilter env ↔
      (FilterChecked topicFilter →
        ∀ i, EmptiesOccupied topicFilter (c.subHandles i) →
          (c.subHandles i).Holds topicFilter ∧ c.isConnected = true ∧
            RequestTracked c topicFilter unsubscribePacket env) := by
  unfold UnsubscribesExactly
  dsimp only
  rcases uiotMqttUnsubscribe_cases c topicFilter env with
    ⟨tracked, -, slots, ret⟩ |
      ⟨untracked, ⟨checked, -, slots⟩ | ⟨unchecked, same⟩, error⟩
  · obtain ⟨checked, -, online, deliverable⟩ := tracked
    rw [slots, ret, forall_prop_of_true checked]
    simp only [reduceCtorEq, false_implies, implies_true, true_and,
      Except.ok.injEq, forall_eq', freesExactly_clearedHandles_iff, online,
      deliverable, and_true]
  · rw [slots, forall_prop_of_true checked]
    have fails : ∀ i, EmptiesOccupied topicFilter (c.subHandles i) →
        ¬(c.isConnected = true ∧
          RequestTracked c topicFilter unsubscribePacket env) :=
      fun i empties passed => untracked ⟨checked, ⟨i, empties.2⟩, passed⟩
    obtain ⟨ret, failed⟩ : ∃ ret,
        (uiotMqttUnsubscribe c topicFilter env).2 = .error ret := by
      cases answer : (uiotMqttUnsubscribe c topicFilter env).2 with
      | error ret => exact ⟨ret, rfl⟩
      | ok packetId => exact absurd answer (error packetId)
    rw [failed]
    simp only [Except.error.injEq, forall_eq', reduceCtorEq, false_implies,
      implies_true, and_true, clearedHandles_eq_iff]
    constructor
    · intro none i empties
      exact absurd empties (none i)
    · intro passed i empties
      exact fails i empties (passed i empties).2
  · rw [same]
    refine iff_of_true ⟨fun _ _ => rfl, fun packetId success => ?_⟩
      fun checked => absurd checked unchecked
    exact absurd success (error packetId)

/-- A client that lost its connection with a subscription to `"a"`. -/
def offlineClient : Client :=
  { uiotMqttInit ⟨2000, false⟩ 0 with
    subHandles := Function.update (fun _ => .zero) firstSlot
      ⟨some ⟨0, textA⟩, some 1, 0, .qos1⟩
    heapTop := 2 }

/-- Without a connection the slot is emptied and the call fails. -/
theorem uiotMqttUnsubscribe_offline :
    ¬UnsubscribesExactly offlineClient textA ⟨true, true, true, [], .qos0⟩ := by
  intro exactly
  have same := congrFun (exactly.1 .errMqttNoConn (by decide)) firstSlot
  revert same
  decide

end Mqtt
end UIoT
