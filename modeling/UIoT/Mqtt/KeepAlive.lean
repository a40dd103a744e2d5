import UIoT.Mqtt.LinkMachine
import Mathlib.Data.List.Chain

/-!
# Keeping the connection alive

Once the keep-alive timer has expired `_mqtt_keep_alive` sends a PINGREQ and
waits a while for something to arrive; after two of them the connection is
given up.  The wait is half the keep-alive interval in whole seconds, so none
at all where the interval is one second.
-/

namespace UIoT
namespace Mqtt

/-! ## Watching the pings -/

/-- A PINGREQ: when it was sent, and the timer armed for its answer. -/
structure PingRequest where
  sentAt : Nat
  timer : Timer
  deriving DecidableEq

/-- The wait armed behind a PINGREQ is at least one second. -/
def PingRequest.Waits (ping : PingRequest) : Prop :=
  ping.sentAt + 1000000 ≤ ping.timer.endTime

/-- A PINGREQ was sent once the wait for the answer of another was over. -/
def PingRequest.Follows (earlier later : PingRequest) : Prop :=
  earlier.timer.hasExpired later.sentAt = true

/-- A packet that shows that the server is there: an acknowledgement, a PINGRESP
or a PUBLISH. -/
def showsLife : MessageTypes → Bool
  | .puback | .suback | .unsuback | .pingresp | .publish => true
  | _ => false

/-- A session with the pings sent since a packet last showed that the server is
there, in the order in which they were sent. -/
structure PingWatch where
  session : Session
  pings : List PingRequest

/-- A client of which nothing has happened yet. -/
def PingWatch.start (params : MQTTInitParams) (clock : Nat) : PingWatch :=
  ⟨.start (uiotMqttInit params clock), []⟩

/-- An event in the session, and what it means for the pings. -/
def PingWatch.step (w : PingWatch) (event : Event) : PingWatch :=
  let session := w.session.step event
  match event.linkOp w.session with
  | .ping =>
      let sentAt := w.session.client.clock
      ⟨session, w.pings ++ [⟨sentAt, session.client.pingTimer⟩]⟩
  | .receive type _ =>
      ⟨session, if showsLife type then [] else w.pings⟩
  | _ => { w with session }

/-! ## Giving up -/

/-- `_mqtt_keep_alive` drops the connection. -/
def Event.GivesUp (s : Session) : Event → Prop
  | .moveYield index _ env =>
      s.yields[index]? = some .subSwept ∧
        (keepAlivePing s.client env).2 = none
  | _ => False

/-- A PINGREQ was due and could not be sent. -/
def Event.PingFails (s : Session) : Event → Prop
  | .moveYield _ _ env =>
      pingDue s.client = true ∧ pingSent s.client env = false
  | _ => False

/-- Two pings in turn have been waited for, each for at least one second, up to
the given time. -/
def WaitedTwice (pings : List PingRequest) (clock : Nat) : Prop :=
  ∃ front first second, pings = front ++ [first, second] ∧
    first.Waits ∧ first.Follows second ∧
    second.Waits ∧ second.timer.hasExpired clock = true

/-- Few pings are outstanding, and the connection is dropped only where a ping
cannot be sent or two of them were waited for. -/
structure PingWatch.KeepsAlive (w : PingWatch) (event : Event) : Prop where
  few : w.session.client.isPingOutstanding.toNat ≤ mqttPingRetryTimes
  drops : event.GivesUp w.session →
    event.PingFails w.session ∨
      WaitedTwice w.pings w.session.client.clock

/-- The keep-alive interval the user asks for is not one second. -/
def Event.Spaced : Event → Prop
  | .connect options _ => options.keepAliveInterval ≠ 1
  | _ => True

instance : (event : Event) → Decidable event.Spaced
  | .connect _ _ => inferInstanceAs (Decidable (_ ≠ _))
  | .attemptReconnect .. | .publish .. | .subscribe .. | .unsubscribe ..
  | .disconnect .. | .setAutoreconnect .. | .yield .. | .moveConnect ..
  | .moveYield .. | .elapse .. => inferInstanceAs (Decidable True)

/-- The connection is given up where a ping cannot be sent, or where two are
outstanding and the timer has expired. -/
theorem keepAlivePing_none {c : Client} {env : YieldEnv}
    (givesUp : (keepAlivePing c env).2 = none) :
    (pingDue c = true ∧ pingSent c env = false) ∨
      (c.pingTimer.hasExpired c.clock = true ∧
        mqttPingRetryTimes ≤ c.isPingOutstanding.toNat) := by
  unfold keepAlivePing at givesUp
  split at givesUp
  · cases givesUp
  rename_i kept
  cases expired : c.pingTimer.hasExpired c.clock with
  | false =>
      rw [expired, if_pos (by decide)] at givesUp
      cases givesUp
  | true =>
      by_cases many : mqttPingRetryTimes ≤ c.isPingOutstanding.toNat
      · exact .inr ⟨rfl, many⟩
      · have due : pingDue c = true := by
          simp [pingDue, kept, expired, Nat.not_le.mp many]
        rw [expired, if_neg (by decide), if_neg many] at givesUp
        refine .inl ⟨due, ?_⟩
        dsimp only at givesUp
        split at givesUp
        · cases givesUp
        rename_i writeBuf len answer
        rw [pingSent_of_ok answer]
        split at givesUp
        · cases givesUp
        rename_i next ret failed send
        rw [send]
        exact decide_eq_false failed

/-! ## Which moves ping and which configure -/

theorem cycleOp_cases (c : Client) (env : CycleEnv) :
    cycleOp c env = .elapse env.elapsed ∨
      ∃ type, cycleOp c env = .receive type env.elapsed := by
  unfold cycleOp
  cases cycleType c env with
  | none => exact .inl rfl
  | some type => exact .inr ⟨type, rfl⟩

/-- A connection attempt neither pings nor takes options once it is opened. -/
theorem ConnectPoint.linkOp_other (c : Client) (timedOut : Bool)
    (env : CycleEnv) (point : ConnectPoint) :
    point.linkOp c timedOut env ≠ .ping ∧
      ∀ options, point.linkOp c timedOut env ≠ .configure options := by
  cases point with
  | waiting readPacketType =>
      rw [linkOp]
      split
      · exact ⟨LinkOp.noConfusion, fun _ => LinkOp.noConfusion⟩
      rcases cycleOp_cases c env with op | ⟨type, op⟩ <;> rw [op] <;>
        exact ⟨LinkOp.noConfusion, fun _ => LinkOp.noConfusion⟩
  | answered =>
      rw [linkOp]
      split <;> exact ⟨LinkOp.noConfusion, fun _ => LinkOp.noConfusion⟩
  | returned ret => exact ⟨LinkOp.noConfusion, fun _ => LinkOp.noConfusion⟩

/-- A yield pings only where a ping is due, and takes no options. -/
theorem YieldPoint.linkOp_other (c : Client) (timedOut : Bool)
    (env : YieldEnv) (point : YieldPoint) :
    (point.linkOp c timedOut env = .ping → pingDue c = true) ∧
      ∀ options, point.linkOp c timedOut env ≠ .configure options := by
  cases point with
  | top =>
      rw [linkOp]
      split
      · exact ⟨LinkOp.noConfusion, fun _ => LinkOp.noConfusion⟩
      rcases cycleOp_cases c env.cycle with op | ⟨type, op⟩ <;> rw [op] <;>
        exact ⟨LinkOp.noConfusion, fun _ => LinkOp.noConfusion⟩
  | connecting point =>
      have other := point.linkOp_other c timedOut env.cycle
      exact ⟨fun pings => absurd pings other.1, other.2⟩
  | subSwept =>
      rw [linkOp]
      split
      · rename_i sent
        have due := (Bool.and_eq_true_iff.mp sent).1
        exact ⟨fun _ => due, fun _ => LinkOp.noConfusion⟩
      · exact ⟨LinkOp.noConfusion, fun _ => LinkOp.noConfusion⟩
  | attempted ret | givingUp | finished ret =>
      rw [linkOp]
      split <;> exact ⟨LinkOp.noConfusion, fun _ => LinkOp.noConfusion⟩
  | givenUp | cycled ret | pubSwept =>
      exact ⟨LinkOp.noConfusion, fun _ => LinkOp.noConfusion⟩

/-- A ping is sent only where one is due. -/
theorem pingDue_of_linkOp {s : Session} {event : Event}
    (pings : event.linkOp s = .ping) : pingDue s.client = true := by
  cases event with
  | connect options env | disconnect writes =>
      rw [Event.linkOp] at pings
      split at pings <;> cases pings
  | moveConnect index timedOut env requests =>
      rw [Event.linkOp] at pings
      split at pings
      · cases pings
      · exact absurd pings (ConnectPoint.linkOp_other ..).1
  | moveYield index timedOut env =>
      rw [Event.linkOp] at pings
      split at pings
      · cases pings
      · exact (YieldPoint.linkOp_other ..).1 pings
  | _ => cases pings

/-- Only connecting changes the keep-alive interval. -/
theorem keepAliveInterval_of_linkOp {s : Session} {event : Event}
    {options : MQTTConnectParams}
    (configures : event.linkOp s = .configure options)
    (spaced : event.Spaced) (before : s.client.options.keepAliveInterval ≠ 1) :
    options.keepAliveInterval ≠ 1 := by
  cases event with
  | connect asked env =>
      rw [Event.linkOp] at configures
      split at configures
      · cases configures
      · cases configures
        exact spaced
  | setAutoreconnect value =>
      cases configures
      exact before
  | disconnect writes =>
      rw [Event.linkOp] at configures
      split at configures <;> cases configures
  | moveConnect index timedOut env requests =>
      rw [Event.linkOp] at configures
      split at configures
      · cases configures
      · exact absurd configures ((ConnectPoint.linkOp_other ..).2 options)
  | moveYield index timedOut env =>
      rw [Event.linkOp] at configures
      split at configures
      · cases configures
      · exact absurd configures ((YieldPoint.linkOp_other ..).2 options)
  | _ => cases configures

/-! ## The invariant -/

/-- Pings that were each waited for before the next one was sent; the timer is
that of the newest. -/
structure InTurn (pings : List PingRequest) (timer : Timer) : Prop where
  wait : ∀ ping ∈ pings, ping.Waits
  follow : pings.IsChain PingRequest.Follows
  newest : ∀ ping ∈ pings.getLast?, ping.timer = timer

theorem InTurn.nil (timer : Timer) : InTurn [] timer where
  wait _ mem := absurd mem List.not_mem_nil
  follow := .nil
  newest _ mem := nomatch mem

/-- Another ping is sent once the timer has expired. -/
theorem InTurn.append {pings : List PingRequest} {timer : Timer}
    (inTurn : InTurn pings timer) {clock : Nat}
    (expired : timer.hasExpired clock = true) {next : Timer}
    (waits : PingRequest.Waits ⟨clock, next⟩) :
    InTurn (pings ++ [⟨clock, next⟩]) next where
  wait ping mem := by
    rcases List.mem_append.mp mem with old | new
    · exact inTurn.wait ping old
    · obtain rfl := List.mem_singleton.mp new
      exact waits
  follow := by
    refine List.isChain_append.mpr ⟨inTurn.follow, .singleton _, ?_⟩
    intro newest isNewest later isLater
    obtain rfl := Option.some.inj isLater
    rw [PingRequest.Follows, inTurn.newest newest isNewest]
    exact expired
  newest ping mem := by
    rw [List.getLast?_concat] at mem
    exact (congrArg PingRequest.timer (Option.some.inj mem)).symm

/-- What is always so: few pings are outstanding, and they are the last ones
that were sent. -/
structure PingWatch.Sound (w : PingWatch) : Prop where
  spaced : w.session.client.options.keepAliveInterval ≠ 1
  few : w.session.client.isPingOutstanding.toNat ≤ mqttPingRetryTimes
  recorded : ∃ answered outstanding, w.pings = answered ++ outstanding ∧
    outstanding.length = w.session.client.isPingOutstanding.toNat ∧
    InTurn outstanding w.session.client.pingTimer

theorem PingWatch.start_sound (params : MQTTInitParams) (clock : Nat) :
    (PingWatch.start params clock).Sound where
  spaced := (by decide : (0 : UInt16) ≠ 1)
  few := Nat.zero_le _
  recorded := ⟨[], [], rfl, rfl, .nil _⟩

section Step

variable {w : PingWatch} {event : Event}

/-- In a sound state only what was waited for twice is given up. -/
theorem PingWatch.Sound.keepsAlive (sound : w.Sound) (event : Event) :
    w.KeepsAlive event where
  few := sound.few
  drops givesUp := by
    cases event with
    | moveYield index timedOut env =>
        obtain ⟨-, none⟩ := givesUp
        rcases keepAlivePing_none none with fails | ⟨expired, many⟩
        · exact .inl fails
        refine .inr ?_
        obtain ⟨answered, outstanding, pings, length, inTurn⟩ := sound.recorded
        have two : outstanding.length = 2 :=
          length.trans (Nat.le_antisymm sound.few many)
        obtain ⟨first, second, rfl⟩ := List.length_eq_two.mp two
        refine ⟨answered, first, second, pings,
          inTurn.wait first (by simp), ?follows,
          inTurn.wait second (by simp), ?late⟩
        case follows => exact (List.isChain_cons_cons.mp inTurn.follow).1
        case late =>
          rw [inTurn.newest second rfl]
          exact expired
    | _ => exact givesUp.elim

/-- The half of an interval other than one is a wait. -/
theorem wait_of_interval {interval : UInt16} (on : interval ≠ 0)
    (spaced : interval ≠ 1) : 1 ≤ min 5 (interval.toNat / 2) := by
  have notZero : interval.toNat ≠ 0 := fun zero =>
    on (UInt16.toNat_inj.mp zero)
  have notOne : interval.toNat ≠ 1 := fun one =>
    spaced (UInt16.toNat_inj.mp one)
  omega

/-- What happens when a ping is sent. -/
theorem PingWatch.Sound.ping (sound : w.Sound)
    (pings : event.linkOp w.session = .ping) : (w.step event).Sound := by
  have due := pingDue_of_linkOp pings
  unfold pingDue at due
  simp only [Bool.and_eq_true, decide_eq_true_eq] at due
  obtain ⟨⟨on, expired⟩, fewer⟩ := due
  have stepped := Session.step_link w.session event
  rw [pings] at stepped
  have options := congrArg Link.options stepped
  have outstanding : (w.session.step event).client.isPingOutstanding =
      w.session.client.isPingOutstanding + 1 :=
    congrArg Link.isPingOutstanding stepped
  have timer : (w.session.step event).client.pingTimer =
      .countdown w.session.client.clock
        (min 5 (w.session.client.options.keepAliveInterval.toNat / 2)) :=
    congrArg Link.pingTimer stepped
  have counted : (w.session.client.isPingOutstanding + 1).toNat =
      w.session.client.isPingOutstanding.toNat + 1 := by
    have one : (1 : UInt8).toNat = 1 := rfl
    rw [UInt8.toNat_add, one]
    unfold mqttPingRetryTimes at fewer
    exact Nat.mod_eq_of_lt (by omega)
  have watched : w.step event = ⟨w.session.step event,
      w.pings ++ [⟨w.session.client.clock,
        (w.session.step event).client.pingTimer⟩]⟩ := by
    unfold PingWatch.step
    rw [pings]
  rw [watched]
  refine ⟨fun one => sound.spaced ?_, ?_, ?_⟩
  · exact (congrArg MQTTConnectParams.keepAliveInterval options).symm.trans one
  · rw [outstanding, counted]
    exact fewer
  · obtain ⟨answered, before, split, length, inTurn⟩ := sound.recorded
    have waits : PingRequest.Waits ⟨w.session.client.clock,
        (w.session.step event).client.pingTimer⟩ := by
      have long := wait_of_interval on sound.spaced
      rw [PingRequest.Waits, timer]
      exact Nat.add_le_add_left (Nat.mul_le_mul_right 1000000 long) _
    refine ⟨answered, _, ?_, ?_, inTurn.append expired waits⟩
    · rw [split, List.append_assoc]
    · rw [List.length_append, length, outstanding, counted]
      rfl

/-- The options after an operation. -/
theorem apply_options (link : Link) {op : LinkOp}
    (kept : ∀ options, op ≠ .configure options) :
    (link.apply op).options = link.options := by
  cases op with
  | configure options => exact absurd rfl (kept options)
  | receive type duration => cases type <;> rfl
  | lost =>
      rw [Link.apply, Link.lost]
      dsimp only
      split <;> rfl
  | _ => rfl

/-- No operation but these touches what is known of the pings. -/
theorem apply_pings (link : Link) {op : LinkOp} (noPing : op ≠ .ping)
    (noAccept : op ≠ .accept)
    (noReceive : ∀ type duration, op ≠ .receive type duration) :
    (link.apply op).isPingOutstanding = link.isPingOutstanding ∧
      (link.apply op).pingTimer = link.pingTimer := by
  cases op with
  | ping => exact absurd rfl noPing
  | accept => exact absurd rfl noAccept
  | receive type duration => exact absurd rfl (noReceive type duration)
  | lost =>
      rw [Link.apply, Link.lost]
      dsimp only
      split <;> exact ⟨rfl, rfl⟩
  | _ => exact ⟨rfl, rfl⟩

/-- A packet that shows that the server is there leaves no ping outstanding,
and no other touches what is known of them. -/
theorem note_pings (link : Link) (type : MessageTypes) :
    if showsLife type then (link.note type).isPingOutstanding = 0
    else
      (link.note type).isPingOutstanding = link.isPingOutstanding ∧
        (link.note type).pingTimer = link.pingTimer := by
  cases type
  case puback | suback | unsuback | pingresp | publish => rfl
  all_goals exact ⟨rfl, rfl⟩

/-- The interval stays other than one second. -/
theorem PingWatch.Sound.spaced_step (sound : w.Sound)
    (spaced : event.Spaced) :
    (w.session.step event).client.options.keepAliveInterval ≠ 1 := by
  have stepped := congrArg Link.options (Session.step_link w.session event)
  have after : (w.session.step event).client.options =
      (w.session.client.link.apply (event.linkOp w.session)).options := stepped
  rw [after]
  by_cases configures : ∃ options,
      event.linkOp w.session = .configure options
  · obtain ⟨options, configures⟩ := configures
    rw [configures]
    exact keepAliveInterval_of_linkOp configures spaced sound.spaced
  · rw [apply_options _ fun options same => configures ⟨options, same⟩]
    exact sound.spaced

/-- A session in which no ping is outstanding is sound. -/
theorem PingWatch.Sound.none {s : Session} {pings : List PingRequest}
    (spaced : s.client.options.keepAliveInterval ≠ 1)
    (none : s.client.isPingOutstanding = 0) : PingWatch.Sound ⟨s, pings⟩ where
  spaced
  few := by
    rw [none]
    exact Nat.zero_le _
  recorded := by
    refine ⟨pings, [], (List.append_nil _).symm, ?_, .nil _⟩
    rw [none]
    rfl

/-- A session in which the pings are as before is sound. -/
theorem PingWatch.Sound.kept (sound : w.Sound) {s : Session}
    (spaced : s.client.options.keepAliveInterval ≠ 1)
    (outstanding : s.client.isPingOutstanding =
      w.session.client.isPingOutstanding)
    (timer : s.client.pingTimer = w.session.client.pingTimer) :
    PingWatch.Sound { w with session := s } where
  spaced
  few := outstanding ▸ sound.few
  recorded := by
    rw [outstanding, timer]
    exact sound.recorded

/-- A step of a client whose interval is not one second leads from a sound state
to a sound state. -/
theorem PingWatch.Sound.step (sound : w.Sound) (asked : event.Spaced) :
    (w.step event).Sound := by
  have spaced := sound.spaced_step asked
  have stepped := Session.step_link w.session event
  have outstanding := congrArg Link.isPingOutstanding stepped
  have timer := congrArg Link.pingTimer stepped
  by_cases pings : event.linkOp w.session = .ping
  · exact sound.ping pings
  by_cases accepts : event.linkOp w.session = .accept
  · unfold PingWatch.step
    rw [accepts] at outstanding ⊢
    exact .none spaced outstanding
  unfold PingWatch.step
  dsimp only
  split
  · exact absurd ‹_› pings
  · rename_i type duration receives
    rw [receives] at outstanding timer
    have noted := note_pings
      { w.session.client.link with
        clock := w.session.client.clock + duration } type
    split
    · rename_i life
      rw [if_pos life] at noted
      exact .none spaced (outstanding.trans noted)
    · rename_i other
      rw [if_neg other] at noted
      exact sound.kept spaced (outstanding.trans noted.1)
        (timer.trans noted.2)
  · rename_i noReceive
    have kept := apply_pings w.session.client.link pings accepts noReceive
    exact sound.kept spaced (outstanding.trans kept.1) (timer.trans kept.2)

end Step

/-! ## Runs -/

/-- Along a run of a client from its initialisation in which the user never
asks for an interval of one second, few pings are outstanding and the
connection is dropped only where a ping cannot be sent or two of them were
waited for. -/
theorem mqttKeepAlive_keepsAlive (params : MQTTInitParams) (clock : Nat)
    (events : List Event)
    (spaced : Machine.Along PingWatch.step (fun _ event => event.Spaced)
      (.start params clock) events) :
    Machine.Along PingWatch.step PingWatch.KeepsAlive (.start params clock)
      events :=
  Machine.Along.imp_of_invariant PingWatch.Sound
    (fun _ event sound _ => sound.keepsAlive event)
    (fun _ _ sound asked => sound.step asked)
    (PingWatch.start_sound params clock) spaced

/-- A pass of a yield in which a packet may arrive. -/
def passTurns (packet : List UInt8) : List Event :=
  yieldTurn packet :: List.replicate 4 (yieldTurn [])

/-- The case of a server that falls silent: the third pass gives up. -/
theorem mqttKeepAlive_keepsAlive_silent :
    Machine.Along PingWatch.step PingWatch.KeepsAlive (.start ⟨2000, true⟩ 0)
      (connectedSession ++ [.elapse 60000000] ++
        passTurns [0x30, 3, 0, 1, 97] ++ [.elapse 5000000] ++ passTurns [] ++
        [.elapse 5000000] ++ passTurns []) :=
  mqttKeepAlive_keepsAlive _ _ _ (by decide +kernel)

/-- A session with a keep-alive interval of one second: after that second two
passes ping at once, and a third one gets to `_mqtt_keep_alive`. -/
def hurriedSession : List Event :=
  [.connect { plainOptions with keepAliveInterval := 1 } acceptedConnect,
    connectTurn [0x20, 2, 0, 0], connectTurn [], connectTurn [], .yield 1000,
    .elapse 1000000] ++
    passTurns [0x30, 3, 0, 1, 97] ++ passTurns [] ++
    List.replicate 3 (yieldTurn [])

/-- The connection is given up without a wait. -/
theorem hurriedSession_givesUp :
    ¬∀ params clock events, Machine.Along PingWatch.step PingWatch.KeepsAlive
      (.start params clock) events := by
  intro all
  have along := all ⟨2000, true⟩ 0 (hurriedSession ++ [yieldTurn []])
  rw [Machine.Along.append_iff, Machine.Along.cons_iff] at along
  have keepsAlive := along.2.1
  have givesUp : (yieldTurn []).GivesUp (Machine.run PingWatch.step
      (.start ⟨2000, true⟩ 0) hurriedSession).session :=
    ⟨by decide +kernel, by decide +kernel⟩
  have pings : (Machine.run PingWatch.step (.start ⟨2000, true⟩ 0)
      hurriedSession).pings = [⟨1000000, ⟨1000000⟩⟩, ⟨1000000, ⟨1000000⟩⟩] := by
    decide +kernel
  have due : pingDue (Machine.run PingWatch.step (.start ⟨2000, true⟩ 0)
      hurriedSession).session.client = false := by
    decide +kernel
  rcases keepsAlive.drops givesUp with ⟨fails, -⟩ | waited
  · exact absurd (due.symm.trans fails) (by decide)
  · obtain ⟨front, first, second, split, waits, -⟩ := waited
    have mem : first ∈ front ++ [first, second] := by simp
    rw [← split, pings] at mem
    have same : first = ⟨1000000, ⟨1000000⟩⟩ := by simpa using mem
    rw [same] at waits
    exact absurd waits (by unfold PingRequest.Waits; decide)

end Mqtt
end UIoT
