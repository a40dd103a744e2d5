import UIoT.Mqtt.LinkMachine

/-!
# Waiting between attempts to reconnect

`_handle_reconnect` doubles the wait after every attempt that fails, up to a
limit.  Only the end of a pass of `uiot_mqtt_yield` that has lost its connection
while reconnecting is on sets the wait to its least value; where the client has
become disconnected otherwise, doubling begins with whatever is there, which is
zero in a client that has never lost a connection.
-/

namespace UIoT
namespace Mqtt

/-! ## Watching the attempts -/

/-- A session with the number of attempts to reconnect that have failed since
the connection was last lost, the number that have failed since a pass last
ended without a connection while reconnecting was on, if one ever has, and the
time at which the last attempt has failed. -/
structure Watch where
  session : Session
  failures : Nat
  doublings : Option Nat
  failedAt : Option Nat

/-- A client of which nothing has happened yet. -/
def Watch.start (params : MQTTInitParams) (clock : Nat) : Watch :=
  ⟨.start (uiotMqttInit params clock), 0, none, none⟩

/-- An attempt of a yield has succeeded. -/
def Event.Reconnects (s : Session) : Event → Prop
  | .moveYield index _ _ =>
      s.yields[index]? = some (.attempted .mqttReconnected)
  | _ => False

instance (s : Session) : (event : Event) → Decidable (event.Reconnects s)
  | .moveYield _ _ _ => inferInstanceAs (Decidable (_ = _))
  | .connect .. | .attemptReconnect .. | .publish .. | .subscribe ..
  | .unsubscribe .. | .disconnect .. | .setAutoreconnect .. | .yield ..
  | .moveConnect .. | .elapse .. => inferInstanceAs (Decidable False)

/-- An event in the session, and what it means for the attempts. -/
def Watch.step (w : Watch) (event : Event) : Watch :=
  let session := w.session.step event
  match event.linkOp w.session with
  | .fail =>
      ⟨session, w.failures + 1, w.doublings.map Nat.succ,
        some w.session.client.clock⟩
  | .lost =>
      let reconnecting := w.session.client.options.autoConnectEnable = 1
      ⟨session, 0, if reconnecting then some 0 else w.doublings, w.failedAt⟩
  | .lose => { w with session, failures := 0 }
  | _ =>
      if event.Reconnects w.session then
        { w with session, failures := 0, failedAt := none }
      else
        { w with session }

/-! ## Backing off -/

/-- The wait after so many failures, in milliseconds. -/
def backoffWait (failures : Nat) : Nat :=
  min (minReconnectWaitInterval * 2 ^ failures) maxReconnectWaitInterval

/-- An attempt that follows a failed one has waited for it, a failed attempt
arms the wait that is due, and the interval can be doubled. -/
structure Watch.BacksOff (w : Watch) (event : Event) : Prop where
  waits : event.Opens w.session → ∀ failedAt, w.failedAt = some failedAt →
    failedAt + minReconnectWaitInterval * 1000 ≤ w.session.client.clock
  arms : event.linkOp w.session = .fail →
    let after := (w.session.step event).client
    after.currentReconnectWaitInterval = backoffWait (w.failures + 1) ∧
      after.reconnectDelayTimer = .countdownMs w.session.client.clock
        (backoffWait (w.failures + 1))
  fits : w.session.client.currentReconnectWaitInterval * 2 < 2 ^ 32

/-- The first attempt that fails follows a pass that has ended without a
connection while reconnecting was on, and no other has failed since. -/
def Watch.Primed (w : Watch) (event : Event) : Prop :=
  event.linkOp w.session = .fail → w.failures = 0 → w.doublings = some 0

theorem backoffWait_bounds (failures : Nat) :
    minReconnectWaitInterval ≤ backoffWait failures ∧
      backoffWait failures ≤ maxReconnectWaitInterval := by
  have positive : 0 < 2 ^ failures := Nat.two_pow_pos failures
  unfold backoffWait minReconnectWaitInterval maxReconnectWaitInterval
  omega

/-- The interval after so many doublings of the least one; before it was ever
set it is zero. -/
def intervalAfter : Option Nat → Nat
  | none => 0
  | some doublings => backoffWait doublings

/-- The interval is never too long to be doubled. -/
theorem intervalAfter_le (doublings : Option Nat) :
    intervalAfter doublings ≤ maxReconnectWaitInterval := by
  cases doublings with
  | none => exact Nat.zero_le _
  | some doublings => exact (backoffWait_bounds doublings).2

theorem backoffWait_succ (failures : Nat) :
    backoffWait (failures + 1) =
      min (backoffWait failures * 2) maxReconnectWaitInterval := by
  have power : 2 ^ (failures + 1) = 2 ^ failures * 2 := Nat.pow_succ ..
  unfold backoffWait minReconnectWaitInterval maxReconnectWaitInterval
  rw [power]
  omega

/-- A failed attempt doubles the interval, up to the limit. -/
theorem nextWait_eq {link : Link}
    (below : link.currentReconnectWaitInterval ≤ maxReconnectWaitInterval) :
    link.nextWait =
      min (link.currentReconnectWaitInterval * 2) maxReconnectWaitInterval := by
  have fits : link.currentReconnectWaitInterval * 2 < 2 ^ 32 := by
    unfold maxReconnectWaitInterval at below
    omega
  unfold Link.nextWait
  dsimp only
  rw [Nat.mod_eq_of_lt fits]
  split <;> omega

theorem nextWait_intervalAfter (link : Link) {doublings : Option Nat}
    (due : link.currentReconnectWaitInterval = intervalAfter doublings) :
    link.nextWait = intervalAfter (doublings.map Nat.succ) := by
  have below := intervalAfter_le doublings
  rw [nextWait_eq (due ▸ below), due]
  cases doublings with
  | none => exact Nat.min_eq_left (Nat.zero_le _)
  | some doublings => exact (backoffWait_succ doublings).symm

/-- Only what was set to the least interval doubles to the first wait. -/
theorem intervalAfter_eq_first {doublings : Option Nat}
    (first : intervalAfter (doublings.map Nat.succ) = backoffWait 1) :
    doublings = some 0 := by
  rcases doublings with _ | _ | doublings
  · exact absurd first (by decide)
  · rfl
  · have positive : 0 < 2 ^ doublings := Nat.two_pow_pos doublings
    have power : 2 ^ (doublings + 1 + 1) = 2 ^ doublings * 4 := by
      rw [Nat.pow_succ, Nat.pow_succ, Nat.mul_assoc]
    have long : minReconnectWaitInterval * 2 ^ (doublings + 1 + 1) =
        minReconnectWaitInterval * 4 * 2 ^ doublings := by
      rw [power, Nat.mul_comm (2 ^ doublings), Nat.mul_assoc]
    change backoffWait (doublings + 1 + 1) = backoffWait 1 at first
    unfold backoffWait at first
    rw [long] at first
    unfold minReconnectWaitInterval maxReconnectWaitInterval at first
    omega

/-! ## What an operation does to the wait -/

theorem apply_interval (link : Link) {op : LinkOp} (noFail : op ≠ .fail)
    (noLoss : op ≠ .lost) :
    (link.apply op).currentReconnectWaitInterval =
        link.currentReconnectWaitInterval ∧
      (link.apply op).reconnectDelayTimer = link.reconnectDelayTimer := by
  cases op with
  | fail => exact absurd rfl noFail
  | lost => exact absurd rfl noLoss
  | receive type duration => cases type <;> exact ⟨rfl, rfl⟩
  | _ => exact ⟨rfl, rfl⟩

theorem apply_clock (link : Link) (op : LinkOp) :
    link.clock ≤ (link.apply op).clock := by
  cases op with
  | receive type duration => cases type <;> exact Nat.le_add_right ..
  | elapse duration => exact Nat.le_add_right ..
  | lost =>
      rw [Link.apply, Link.lost]
      dsimp only
      split <;> exact Nat.le_refl _
  | _ => exact Nat.le_refl _

/-- A yield opens a connection only once the wait is over. -/
theorem expired_of_opens {s : Session} {event : Event}
    (opens : event.Opens s) :
    s.client.reconnectDelayTimer.hasExpired s.client.clock = true := by
  cases event with
  | moveYield index timedOut env =>
      obtain ⟨-, point, answer⟩ := opens
      rw [YieldPoint.advance] at answer
      split at answer
      · cases answer
      split at answer
      · split at answer
        · cases answer
        split at answer
        · cases answer
        · rename_i expired
          simpa using expired
      · cases answer
  | _ => exact absurd opens id

/-! ## The invariant -/

/-- What is always so: the interval is the one its doublings have made, and an
attempt that has failed has armed a wait of at least the least interval. -/
structure Watch.Sound (w : Watch) : Prop where
  interval : w.session.client.currentReconnectWaitInterval =
    intervalAfter w.doublings
  follows : w.failures ≠ 0 → w.doublings = some w.failures
  past : ∀ failedAt, w.failedAt = some failedAt →
    failedAt ≤ w.session.client.clock
  armed : ∀ failedAt, w.failedAt = some failedAt →
    failedAt + minReconnectWaitInterval * 1000 ≤
      w.session.client.reconnectDelayTimer.endTime

theorem Watch.start_sound (params : MQTTInitParams) (clock : Nat) :
    (Watch.start params clock).Sound where
  interval := rfl
  follows some := absurd rfl some
  past _ failed := nomatch failed
  armed _ failed := nomatch failed

section Step

variable {w : Watch} {event : Event}

/-- The state of the connection after a step of the watched session. -/
theorem Watch.step_client (w : Watch) (event : Event) :
    (w.step event).session.client.link =
      w.session.client.link.apply (event.linkOp w.session) := by
  have stepped := Session.step_link w.session event
  unfold Watch.step
  dsimp only
  split
  · exact stepped
  · exact stepped
  · exact stepped
  · split <;> exact stepped

/-- A failed attempt that was the first after such a loss, or that follows
another one, has counted its doubling. -/
theorem Watch.Primed.doublings (sound : w.Sound) (primed : w.Primed event)
    (fails : event.linkOp w.session = .fail) :
    w.doublings = some w.failures := by
  by_cases first : w.failures = 0
  · rw [first]
    exact primed fails first
  · exact sound.follows first

/-- In a sound state, backing off is what follows from a primed one. -/
theorem Watch.Sound.backsOff_iff (sound : w.Sound) :
    w.BacksOff event ↔ w.Primed event := by
  have below := intervalAfter_le w.doublings
  rw [← sound.interval] at below
  have doubled := nextWait_intervalAfter w.session.client.link sound.interval
  have stepped := Session.step_link w.session event
  constructor
  · intro backsOff fails first
    have arms := (backsOff.arms fails).1
    rw [fails] at stepped
    have next : (w.session.step event).client.currentReconnectWaitInterval =
        w.session.client.link.nextWait :=
      congrArg Link.currentReconnectWaitInterval stepped
    rw [next, doubled, first] at arms
    exact intervalAfter_eq_first arms
  · intro primed
    refine ⟨?waits, ?arms, ?fits⟩
    case waits =>
      intro opens failedAt failed
      have expired := expired_of_opens opens
      exact (sound.armed failedAt failed).trans (of_decide_eq_true expired)
    case arms =>
      intro fails
      have counted := primed.doublings sound fails
      rw [counted] at doubled
      have due : w.session.client.link.nextWait =
          backoffWait (w.failures + 1) := doubled
      rw [fails] at stepped
      rw [← due]
      exact ⟨congrArg Link.currentReconnectWaitInterval stepped,
        congrArg Link.reconnectDelayTimer stepped⟩
    case fits =>
      unfold maxReconnectWaitInterval at below
      omega

/-- What happens when an attempt fails. -/
theorem Watch.Sound.fail (sound : w.Sound) (primed : w.Primed event)
    (fails : event.linkOp w.session = .fail) : (w.step event).Sound := by
  have client := w.step_client event
  have counted := primed.doublings sound fails
  have doubled := nextWait_intervalAfter w.session.client.link sound.interval
  have watched : w.step event = ⟨w.session.step event, w.failures + 1,
      w.doublings.map Nat.succ, some w.session.client.clock⟩ := by
    unfold Watch.step
    rw [fails]
  have long : minReconnectWaitInterval ≤ w.session.client.link.nextWait := by
    rw [doubled, counted]
    exact (backoffWait_bounds _).1
  rw [fails] at client
  have clock := congrArg Link.clock client
  have timer := congrArg Link.reconnectDelayTimer client
  have interval := congrArg Link.currentReconnectWaitInterval client
  refine ⟨?_, ?_, ?_, ?_⟩
  · rw [watched] at interval ⊢
    exact interval.trans doubled
  · intro _
    rw [watched, counted]
    rfl
  · intro failedAt failed
    rw [watched] at clock failed ⊢
    obtain rfl := Option.some.inj failed
    exact clock.ge
  · intro failedAt failed
    rw [watched] at timer failed ⊢
    obtain rfl := Option.some.inj failed
    exact (Nat.add_le_add_left (Nat.mul_le_mul_right 1000 long) _).trans_eq
      (congrArg Timer.endTime timer).symm

/-- What happens when a pass has ended without a connection. -/
theorem Watch.Sound.lost (sound : w.Sound)
    (lost : event.linkOp w.session = .lost) : (w.step event).Sound := by
  have client := w.step_client event
  rw [lost, Link.apply, Link.lost] at client
  have watched : w.step event = ⟨w.session.step event, 0,
      if w.session.client.options.autoConnectEnable = 1 then some 0
      else w.doublings, w.failedAt⟩ := by
    unfold Watch.step
    rw [lost]
  rw [watched] at client ⊢
  by_cases on : w.session.client.options.autoConnectEnable = 1
  · have next := client.trans (if_pos on)
    have clock := congrArg Link.clock next
    have timer := congrArg Link.reconnectDelayTimer next
    rw [if_pos on]
    refine ⟨congrArg Link.currentReconnectWaitInterval next,
      fun some => absurd rfl some, ?_, ?_⟩
    · intro failedAt failed
      exact (sound.past failedAt failed).trans clock.ge
    · intro failedAt failed
      exact (Nat.add_le_add_right (sound.past failedAt failed) _).trans_eq
        (congrArg Timer.endTime timer).symm
  · have next := client.trans (if_neg on)
    have clock := congrArg Link.clock next
    have timer := congrArg Link.reconnectDelayTimer next
    rw [if_neg on]
    refine ⟨(congrArg Link.currentReconnectWaitInterval next).trans
      sound.interval, fun some => absurd rfl some, ?_, ?_⟩
    · intro failedAt failed
      exact (sound.past failedAt failed).trans clock.ge
    · intro failedAt failed
      exact (sound.armed failedAt failed).trans_eq
        (congrArg Timer.endTime timer).symm

/-- What an operation does that touches neither the interval nor the timer:
the watched session is sound as long as the watch has counted no other
doubling and no later failure. -/
theorem Watch.Sound.other (sound : w.Sound)
    (noFail : event.linkOp w.session ≠ .fail)
    (noLoss : event.linkOp w.session ≠ .lost) {failures : Nat}
    {failedAt : Option Nat} (fewer : failures = 0 ∨ failures = w.failures)
    (sooner : failedAt = none ∨ failedAt = w.failedAt) :
    Watch.Sound
      ⟨w.session.step event, failures, w.doublings, failedAt⟩ := by
  have client := Session.step_link w.session event
  have kept := apply_interval w.session.client.link noFail noLoss
  have later := apply_clock w.session.client.link
    (event.linkOp w.session)
  rw [← client] at kept later
  refine ⟨kept.1.trans sound.interval, ?_, ?_, ?_⟩
  · rcases fewer with rfl | rfl
    · exact fun some => absurd rfl some
    · exact sound.follows
  · intro time failed
    rcases sooner with rfl | rfl
    · cases failed
    · exact (sound.past time failed).trans later
  · intro time failed
    rcases sooner with rfl | rfl
    · cases failed
    · exact (sound.armed time failed).trans_eq
        (congrArg Timer.endTime kept.2).symm

/-- A step that backs off leads from a sound state to a sound state. -/
theorem Watch.Sound.step (sound : w.Sound) (backsOff : w.BacksOff event) :
    (w.step event).Sound := by
  by_cases fails : event.linkOp w.session = .fail
  · exact sound.fail (sound.backsOff_iff.mp backsOff) fails
  by_cases lost : event.linkOp w.session = .lost
  · exact sound.lost lost
  unfold Watch.step
  dsimp only
  split
  · exact absurd ‹_› fails
  · exact absurd ‹_› lost
  · exact sound.other fails lost (.inl rfl) (.inr rfl)
  split
  · exact sound.other fails lost (.inl rfl) (.inl rfl)
  · exact sound.other fails lost (.inr rfl) (.inr rfl)

end Step

/-! ## Runs -/

/-- Along a run of a client from its initialisation the client backs off
exactly when every first failing attempt follows a pass that has ended without
a connection while reconnecting was on. -/
theorem uiotMqttYield_backsOff_iff (params : MQTTInitParams) (clock : Nat)
    (events : List Event) :
    Machine.Along Watch.step Watch.BacksOff (.start params clock) events ↔
      Machine.Along Watch.step Watch.Primed (.start params clock) events :=
  Machine.Along.iff_of_invariant Watch.Sound
    (fun _ _ sound => sound.backsOff_iff)
    (fun _ _ sound backsOff => sound.step backsOff)
    (Watch.start_sound params clock) events

/-- A turn of a yield whose attempts to connect fail. -/
def refusedTurn : Event :=
  .moveYield 0 false
    { quietPass 0 with
      reconnect := ⟨⟨.failureRet, [], []⟩, fun _ => unhindered⟩ }

/-- A session in which a handler disconnects and an attempt to connect again
fails. -/
def refusedSession : List Event :=
  disconnectedInHandler ++ List.replicate 3 refusedTurn

/-- After a disconnect in a handler the second attempt begins at the time the
first has failed. -/
theorem disconnectInHandler_noBackoff :
    ¬∀ params clock events, Machine.Along Watch.step Watch.BacksOff
      (.start params clock) events := by
  intro all
  have along := all ⟨2000, true⟩ 0 (refusedSession ++ [refusedTurn])
  rw [Machine.Along.append_iff, Machine.Along.cons_iff] at along
  have backsOff := along.2.1
  have opens : refusedTurn.Opens (Machine.run Watch.step
      (.start ⟨2000, true⟩ 0) refusedSession).session :=
    ⟨by decide +kernel, .returned .failureRet, by decide +kernel⟩
  have failedAt : (Machine.run Watch.step
      (.start ⟨2000, true⟩ 0) refusedSession).failedAt = some 0 := by
    decide +kernel
  have early : ¬0 + minReconnectWaitInterval * 1000 ≤ (Machine.run Watch.step
      (.start ⟨2000, true⟩ 0) refusedSession).session.client.clock := by
    decide +kernel
  exact early (backsOff.waits opens 0 failedAt)

end Mqtt
end UIoT
