import UIoT.Mqtt.OutgoingFraming

/-!
# Sending a packet in parts

`send_mqtt_packet` calls the write primitive until as many bytes as the packet
has were taken.  Every call asks for the whole length again, from where the
last one stopped, so that after a partial write more can be taken than the
packet has left.
-/

namespace UIoT
namespace Mqtt

/-- A send puts the first bytes of the write buffer on the connection, none of
them behind the packet, and reports success exactly if all of the packet was
taken. -/
structure SendExact (c : Client) (length : Nat)
    (writes : List WriteOutcome) : Prop where
  inside : ∃ count ≤ length, (sendMqttPacket c length writes).1.output =
    c.output ++ c.writeBuf.slice 0 count
  success : (sendMqttPacket c length writes).2 = .successRet ↔
    (sendMqttPacket c length writes).1.output.length =
      c.output.length + length

/-- What each write takes, up to the first one that fails.  A write takes at
most the length it is asked for. -/
def takenCounts (length : Nat) : List WriteOutcome → List Nat
  | [] => []
  | .failure :: _ => []
  | .accepted count :: writes => min count length :: takenCounts length writes

/-- As long as bytes are missing, no write takes more than these. -/
def TakesOnlyMissing (length : Nat) (writes : List WriteOutcome) : Prop :=
  ∀ before count after,
    takenCounts length writes = before ++ count :: after →
      before.sum < length → before.sum + count ≤ length

/-- The loop stays inside the packet exactly if no write takes more than is
missing. -/
theorem sendLoop_le_iff (writeBuf : Memory) (length : Nat)
    (writes : List WriteOutcome) {sent : Nat} (inside : sent ≤ length)
    (output : List UInt8) :
    (sendLoop writeBuf length writes sent output).1 ≤ length ↔
      ∀ before count after,
        takenCounts length writes = before ++ count :: after →
          sent + before.sum < length → sent + before.sum + count ≤ length := by
  induction writes generalizing sent output with
  | nil =>
      refine iff_of_true inside ?_
      intro before count after counts
      simp [takenCounts] at counts
  | cons outcome writes inductionHypothesis =>
      by_cases missing : sent < length
      · cases outcome with
        | failure =>
            rw [sendLoop, if_pos missing]
            refine iff_of_true inside ?_
            intro before count after counts
            simp [takenCounts] at counts
        | accepted most =>
            rw [sendLoop, if_pos missing]
            by_cases fits : sent + min most length ≤ length
            · rw [inductionHypothesis fits]
              constructor
              · intro rest before count after counts short
                cases before with
                | nil =>
                    obtain ⟨rfl, -⟩ := List.cons.inj counts
                    exact fits
                | cons first before =>
                    obtain ⟨rfl, others⟩ := List.cons.inj counts
                    rw [List.sum_cons, ← Nat.add_assoc] at short ⊢
                    exact rest before count after others short
              · intro all before count after counts short
                have whole : takenCounts length (.accepted most :: writes) =
                    (min most length :: before) ++ count :: after := by
                  rw [takenCounts, counts, List.cons_append]
                have taken := all _ count after whole
                rw [List.sum_cons, ← Nat.add_assoc] at taken
                exact taken short
            · have grows := (sendLoop_eq writeBuf length writes
                (sent + min most length)
                (output ++ writeBuf.slice sent (min most length))).1
              refine iff_of_false (by omega) fun all => ?_
              exact fits (all [] _ _ rfl missing)
      · unfold sendLoop
        rw [if_neg missing]
        exact iff_of_true inside fun before count after _ short => by omega

/-- When a send of a packet of this length is exact: it is refused at the
start, or no write takes more than is missing of the packet. -/
theorem sendExact_iff (c : Client) (length : Nat)
    (writes : List WriteOutcome) :
    SendExact c length writes ↔
      (length < uiotMqttTxBufLen → TakesOnlyMissing length writes) := by
  have sends := congrArg Client.output (sendMqttPacket_fst c length writes)
  dsimp only at sends
  have total : (sendMqttPacket c length writes).1.output.length =
      c.output.length + sentCount length writes := by
    rw [sends, List.length_append, Memory.length_slice]
  have success := sendMqttPacket_ret c length writes
  by_cases short : length < uiotMqttTxBufLen
  · have counts : sentCount length writes =
        (sendLoop (fun _ => 0) length writes 0 []).1 := by
      rw [sentCount, if_neg (Nat.not_le.mpr short)]
    have stays := sendLoop_le_iff (fun _ => 0) length writes
      (Nat.zero_le length) []
    rw [← counts] at stays
    simp only [Nat.zero_add] at stays
    constructor
    · intro exact _
      obtain ⟨count, inside, output⟩ := exact.inside
      apply stays.mp
      have lengths := congrArg List.length output
      rw [total, List.length_append, Memory.length_slice] at lengths
      omega
    · intro onlyMissing
      refine ⟨⟨_, stays.mpr (onlyMissing short), sends⟩, ?_⟩
      rw [success, total, Completes, and_iff_right short, counts]
      omega
  · have none : sentCount length writes = 0 := by
      rw [sentCount, if_pos (Nat.le_of_not_lt short)]
    refine iff_of_true ⟨⟨0, Nat.zero_le _, none ▸ sends⟩, ?_⟩
      fun below => absurd below short
    rw [success, total, none, Completes]
    have positive : 0 < length :=
      Nat.lt_of_lt_of_le (by decide) (Nat.le_of_not_lt short)
    refine iff_of_false (fun completes => short completes.1) ?_
    omega

/-- One byte of a PUBLISH of five is taken, and then five more are. -/
theorem send_afterPartialWrite_leavesPacket :
    ¬∀ (c : Client) (packet : WirePacket) (writes : List WriteOutcome),
      HoldsPacket c.writeBuf packet.bytes.length packet →
        packet.bytes.length ≤ uiotMqttTxBufLen →
          SendExact c packet.bytes.length writes := by
  intro all
  let publish : WirePacket := ⟨0x30, [0, 1, 97], by decide⟩
  let c : Client := { uiotMqttInit ⟨2000, true⟩ 0 with
    writeBuf := fun address => publish.bytes.getD address 0 }
  have holds : HoldsPacket c.writeBuf publish.bytes.length publish :=
    show c.writeBuf.slice 0 publish.bytes.length = publish.bytes by decide
  have exact := all c publish [.accepted 1, .accepted 5] holds (by decide)
  have onlyMissing := (sendExact_iff c _ _).mp exact (by decide)
  have taken := onlyMissing [1] 5 [] (by decide) (by decide)
  exact absurd taken (by decide)

end Mqtt
end UIoT
