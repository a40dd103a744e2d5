import Mathlib.Data.List.Nodup
import Mathlib.Data.List.Perm.Basic
import Mathlib.Data.List.Count

/-!
# Ledgers of requests

A ledger lists the requests that are under way and records their outcomes.  A
request is entered under a name no other listed request has.  An answer records
an outcome for a request that waits, which stays listed until it is swept;
a sweep removes the answered requests, and the expired ones with an outcome.

Then every request has at most one outcome while it is listed, and exactly one
when it leaves the list.  It stays at that one as long as its name is neither
entered again nor answered without a request.
-/

namespace Ledger

universe u v

/-- A listed request: the key it is known by, the name it is answered by,
whether it still waits, and whatever else is noted about it. -/
structure Entry (ι : Type u) (α : Type v) where
  key : Nat
  name : ι
  waits : Bool
  note : α

/-- The listed requests, the outcomes recorded so far and the first free
key. -/
@[ext] structure State (ι : Type u) (α : Type v) where
  entries : List (Entry ι α)
  outcomes : List ι
  next : Nat

variable {ι : Type u} {α : Type v}

section Answers

variable [DecidableEq ι]

/-- The request, answered if it goes by the name. -/
def Entry.answer (name : ι) (entry : Entry ι α) : Entry ι α :=
  if entry.name = name then { entry with waits := false } else entry

@[simp] theorem Entry.key_answer (name : ι) (entry : Entry ι α) :
    (entry.answer name).key = entry.key := by
  unfold Entry.answer
  split <;> rfl

@[simp] theorem Entry.name_answer (name : ι) (entry : Entry ι α) :
    (entry.answer name).name = entry.name := by
  unfold Entry.answer
  split <;> rfl

@[simp] theorem Entry.note_answer (name : ι) (entry : Entry ι α) :
    (entry.answer name).note = entry.note := by
  unfold Entry.answer
  split <;> rfl

end Answers

/-- The steps of a ledger. -/
inductive Step [DecidableEq ι] (s : State ι α) : State ι α → Prop
  | idle (next : Nat) (grows : s.next ≤ next) : Step s { s with next }
  | enter (entry : Entry ι α) (next : Nat) (waits : entry.waits = true)
      (key : s.next ≤ entry.key ∧ entry.key < next)
      (fresh : ∀ other ∈ s.entries, other.name ≠ entry.name) :
      Step s { s with entries := s.entries ++ [entry], next }
  | answer (entry : Entry ι α) (listed : entry ∈ s.entries)
      (waits : entry.waits = true) :
      Step s
        { s with
          entries := s.entries.map (Entry.answer entry.name)
          outcomes := s.outcomes ++ [entry.name] }
  | sweep (expires : Entry ι α → Bool) (names : List ι)
      (waiting : ∀ entry ∈ s.entries,
        expires entry = true → entry.waits = true)
      (expired : names.Perm ((s.entries.filter expires).map Entry.name)) :
      Step s
        { s with
          entries := s.entries.filter fun entry =>
            entry.waits && !expires entry
          outcomes := s.outcomes ++ names }

/-- Keys are handed out in order, and names and keys are distinct. -/
structure State.Distinct (s : State ι α) : Prop where
  key_lt : ∀ entry ∈ s.entries, entry.key < s.next
  keys : (s.entries.map Entry.key).Nodup
  names : (s.entries.map Entry.name).Nodup

namespace State.Distinct

variable {s s' : State ι α}

/-- A request is known by its name. -/
theorem eq_of_name (distinct : s.Distinct) {first second : Entry ι α}
    (left : first ∈ s.entries) (right : second ∈ s.entries)
    (same : first.name = second.name) : first = second :=
  List.inj_on_of_nodup_map distinct.names left right same

/-- A request is known by its key. -/
theorem eq_of_key (distinct : s.Distinct) {first second : Entry ι α}
    (left : first ∈ s.entries) (right : second ∈ s.entries)
    (same : first.key = second.key) : first = second :=
  List.inj_on_of_nodup_map distinct.keys left right same

/-- Every step keeps keys and names distinct. -/
theorem step [DecidableEq ι] (distinct : s.Distinct) (steps : Step s s') : s'.Distinct := by
  cases steps with
  | idle next grows =>
      exact ⟨fun entry listed =>
          Nat.lt_of_lt_of_le (distinct.key_lt entry listed) grows,
        distinct.keys, distinct.names⟩
  | enter entry next waits key fresh =>
      refine ⟨?_, ?_, ?_⟩
      · intro other listed
        rcases List.mem_append.mp listed with old | new
        · exact Nat.lt_of_lt_of_le (distinct.key_lt other old)
            (Nat.le_of_lt (Nat.lt_of_le_of_lt key.1 key.2))
        · rw [List.mem_singleton.mp new]
          exact key.2
      · rw [List.map_append, List.nodup_append]
        refine ⟨distinct.keys, List.nodup_singleton _, ?_⟩
        intro old oldMem new newMem
        obtain ⟨other, listed, rfl⟩ := List.mem_map.mp oldMem
        rw [List.mem_singleton.mp newMem]
        exact Nat.ne_of_lt
          (Nat.lt_of_lt_of_le (distinct.key_lt other listed) key.1)
      · rw [List.map_append, List.nodup_append]
        refine ⟨distinct.names, List.nodup_singleton _, ?_⟩
        intro old oldMem new newMem
        obtain ⟨other, listed, rfl⟩ := List.mem_map.mp oldMem
        rw [List.mem_singleton.mp newMem]
        exact fresh other listed
  | answer entry listed waits =>
      have keys : (s.entries.map (Entry.answer entry.name)).map Entry.key =
          s.entries.map Entry.key := by
        simp [List.map_map, Function.comp_def]
      have names : (s.entries.map (Entry.answer entry.name)).map Entry.name =
          s.entries.map Entry.name := by
        simp [List.map_map, Function.comp_def]
      refine ⟨?_, keys ▸ distinct.keys, names ▸ distinct.names⟩
      intro answered mem
      obtain ⟨other, otherListed, rfl⟩ := List.mem_map.mp mem
      rw [Entry.key_answer]
      exact distinct.key_lt other otherListed
  | sweep expires names waiting expired =>
      exact ⟨fun entry listed => distinct.key_lt entry
          (List.mem_of_mem_filter listed),
        distinct.keys.sublist (List.filter_sublist.map _),
        distinct.names.sublist (List.filter_sublist.map _)⟩

end State.Distinct

/-! ## The outcomes of one request -/

section Outcomes

variable [DecidableEq ι]

/-- The outcomes recorded for a name since the ledger had so many. -/
def State.recorded (s : State ι α) (since : Nat) (name : ι) : Nat :=
  (s.outcomes.drop since).count name

/-- The request is listed, without an outcome if it waits and with one if it
has been answered. -/
def State.Open (s : State ι α) (since key : Nat) (name : ι) : Prop :=
  since ≤ s.outcomes.length ∧
    ∃ entry ∈ s.entries, entry.key = key ∧ entry.name = name ∧
      s.recorded since name = if entry.waits then 0 else 1

/-- The request is no longer listed, nor any other under its name, and it has
had one outcome. -/
structure State.Settled (s : State ι α) (since key : Nat) (name : ι) : Prop where
  since_le : since ≤ s.outcomes.length
  key_lt : key < s.next
  key_ne : ∀ entry ∈ s.entries, entry.key ≠ key
  name_ne : ∀ entry ∈ s.entries, entry.name ≠ name
  recorded : s.recorded since name = 1

/-- More outcomes count on top. -/
theorem State.recorded_append (s : State ι α) {since : Nat}
    (enough : since ≤ s.outcomes.length) (names : List ι)
    (entries : List (Entry ι α)) (next : Nat) (name : ι) :
    State.recorded ⟨entries, s.outcomes ++ names, next⟩ since name =
      s.recorded since name + names.count name := by
  rw [State.recorded, State.recorded, List.drop_append_of_le_length enough,
    List.count_append]

variable {s s' : State ι α} {since key : Nat} {name : ι}

/-- A listed request has at most one outcome. -/
theorem State.Open.recorded_le (isOpen : s.Open since key name) :
    s.recorded since name ≤ 1 := by
  obtain ⟨-, entry, -, -, -, recorded⟩ := isOpen
  rw [recorded]
  split <;> decide

/-- The outcomes a sweep records for a listed request: one if it expires. -/
theorem count_expired (distinct : s.Distinct) {entry : Entry ι α}
    (listed : entry ∈ s.entries) (expires : Entry ι α → Bool) {names : List ι}
    (expired : names.Perm ((s.entries.filter expires).map Entry.name)) :
    names.count entry.name = if expires entry then 1 else 0 := by
  have nodup : ((s.entries.filter expires).map Entry.name).Nodup :=
    distinct.names.sublist (List.filter_sublist.map _)
  rw [expired.count_eq]
  split
  · rename_i ends
    exact List.count_eq_one_of_mem nodup
      (List.mem_map_of_mem (List.mem_filter.mpr ⟨listed, ends⟩))
  · rename_i stays
    refine List.count_eq_zero.mpr fun mem => stays ?_
    obtain ⟨other, otherMem, same⟩ := List.mem_map.mp mem
    obtain ⟨otherListed, ends⟩ := List.mem_filter.mp otherMem
    rwa [← distinct.eq_of_name otherListed listed same]

/-- A listed request stays listed with at most one outcome, or leaves with
exactly one. -/
theorem State.Open.step (isOpen : s.Open since key name)
    (distinct : s.Distinct) (steps : Step s s') :
    s'.Open since key name ∨ s'.Settled since key name := by
  obtain ⟨enough, entry, listed, rfl, rfl, recorded⟩ := isOpen
  have more : ∀ names : List ι, since ≤ (s.outcomes ++ names).length :=
    fun names => Nat.le_trans enough (by simp)
  cases steps with
  | idle next grows =>
      exact .inl ⟨enough, entry, listed, rfl, rfl, recorded⟩
  | enter other next waits otherKey fresh =>
      exact .inl ⟨enough, entry, List.mem_append_left _ listed, rfl, rfl,
        recorded⟩
  | answer other otherListed waits =>
      refine .inl ⟨more _, entry.answer other.name,
        List.mem_map_of_mem listed, by simp, by simp, ?_⟩
      rw [s.recorded_append enough, recorded]
      by_cases same : entry.name = other.name
      · have isOther := distinct.eq_of_name listed otherListed same
        subst isOther
        simp [Entry.answer, waits]
      · simp [Entry.answer, same, Ne.symm same]
  | sweep expires names waiting expired =>
      have counted := count_expired distinct listed expires expired
      by_cases stays : (entry.waits && !expires entry) = true
      · refine .inl ⟨more _, entry, List.mem_filter.mpr ⟨listed, stays⟩, rfl,
          rfl, ?_⟩
        rw [s.recorded_append enough, recorded, counted]
        simp_all
      · refine .inr ⟨more _, distinct.key_lt entry listed, ?_, ?_, ?_⟩
        · intro other mem same
          obtain ⟨otherListed, otherStays⟩ := List.mem_filter.mp mem
          rw [distinct.eq_of_key otherListed listed same] at otherStays
          exact stays otherStays
        · intro other mem same
          obtain ⟨otherListed, otherStays⟩ := List.mem_filter.mp mem
          rw [distinct.eq_of_name otherListed listed same] at otherStays
          exact stays otherStays
        · rw [s.recorded_append enough, recorded, counted]
          have waits := waiting entry listed
          revert stays waits
          cases entry.waits <;> cases expires entry <;> simp

/-- A settled request stays settled as long as its name is not entered
again. -/
theorem State.Settled.step (settled : s.Settled since key name)
    (steps : Step s s')
    (unentered : ∀ entry ∈ s'.entries, entry.name ≠ name) :
    s'.Settled since key name := by
  have enough := settled.since_le
  have more : ∀ names : List ι, since ≤ (s.outcomes ++ names).length :=
    fun names => Nat.le_trans enough (by simp)
  cases steps with
  | idle next grows =>
      exact ⟨enough, Nat.lt_of_lt_of_le settled.key_lt grows, settled.key_ne,
        unentered, settled.recorded⟩
  | enter entry next waits entryKey fresh =>
      have newer := Nat.lt_of_lt_of_le settled.key_lt entryKey.1
      refine ⟨enough, Nat.lt_trans newer entryKey.2, ?_, unentered,
        settled.recorded⟩
      intro other listed
      rcases List.mem_append.mp listed with old | new
      · exact settled.key_ne other old
      · rw [List.mem_singleton.mp new]
        exact Nat.ne_of_gt newer
  | answer entry listed waits =>
      refine ⟨more _, settled.key_lt, ?_, unentered, ?_⟩
      · intro answered mem
        obtain ⟨other, otherListed, rfl⟩ := List.mem_map.mp mem
        rw [Entry.key_answer]
        exact settled.key_ne other otherListed
      · rw [s.recorded_append enough, settled.recorded]
        simp [settled.name_ne entry listed]
  | sweep expires names waiting expired =>
      refine ⟨more _, settled.key_lt,
        fun entry mem => settled.key_ne entry (List.mem_of_mem_filter mem),
        unentered, ?_⟩
      have unnamed : names.count name = 0 := by
        refine List.count_eq_zero.mpr fun mem => ?_
        obtain ⟨entry, filtered, same⟩ :=
          List.mem_map.mp (expired.subset mem)
        exact settled.name_ne entry (List.mem_of_mem_filter filtered) same
      rw [s.recorded_append enough, settled.recorded, unnamed]

end Outcomes

/-! ## Answers without a request -/

section Strays

variable [DecidableEq ι]

/-- The steps of a ledger that also records outcomes under names nobody
has. -/
inductive LooseStep (s : State ι α) : State ι α → Prop
  | step {s' : State ι α} (steps : Step s s') : LooseStep s s'
  | stray (name : ι) (unlisted : ∀ entry ∈ s.entries, entry.name ≠ name) :
      LooseStep s { s with outcomes := s.outcomes ++ [name] }

variable {s s' : State ι α} {since key : Nat} {name : ι}

theorem State.Distinct.looseStep (distinct : s.Distinct)
    (steps : LooseStep s s') : s'.Distinct := by
  cases steps with
  | step steps => exact distinct.step steps
  | stray name unlisted =>
      exact ⟨distinct.key_lt, distinct.keys, distinct.names⟩

/-- Outcomes under other names do not count. -/
theorem State.Open.looseStep (isOpen : s.Open since key name)
    (distinct : s.Distinct) (steps : LooseStep s s') :
    s'.Open since key name ∨ s'.Settled since key name := by
  cases steps with
  | step steps => exact isOpen.step distinct steps
  | stray other unlisted =>
      obtain ⟨enough, entry, listed, rfl, rfl, recorded⟩ := isOpen
      refine .inl ⟨Nat.le_trans enough (by simp), entry, listed, rfl, rfl, ?_⟩
      rw [s.recorded_append enough, recorded]
      simp [Ne.symm (unlisted entry listed)]

/-- A listed request was listed before, under the same name and with the same
note, or it has a new key. -/
theorem LooseStep.listed (steps : LooseStep s s') {entry : Entry ι α}
    (mem : entry ∈ s'.entries) :
    (∃ old ∈ s.entries, old.key = entry.key ∧ old.name = entry.name ∧
        old.note = entry.note) ∨
      s.next ≤ entry.key := by
  cases steps with
  | stray name unlisted => exact .inl ⟨entry, mem, rfl, rfl, rfl⟩
  | step steps =>
      cases steps with
      | idle next grows => exact .inl ⟨entry, mem, rfl, rfl, rfl⟩
      | enter new next waits newKey fresh =>
          rcases List.mem_append.mp mem with old | entered
          · exact .inl ⟨entry, old, rfl, rfl, rfl⟩
          · rw [List.mem_singleton.mp entered]
            exact .inr newKey.1
      | answer other listed waits =>
          obtain ⟨old, oldListed, rfl⟩ := List.mem_map.mp mem
          exact .inl ⟨old, oldListed, by simp⟩
      | sweep expires names waiting expired =>
          exact .inl ⟨entry, List.mem_of_mem_filter mem, rfl, rfl, rfl⟩

/-- No request with the key is listed, nor will one be. -/
def State.Gone (s : State ι α) (key : Nat) : Prop :=
  key < s.next ∧ ∀ entry ∈ s.entries, entry.key ≠ key

/-- A request that has left does not come back. -/
theorem State.Gone.looseStep (gone : s.Gone key) (steps : LooseStep s s') :
    s'.Gone key := by
  obtain ⟨key_lt, key_ne⟩ := gone
  cases steps with
  | stray name unlisted => exact ⟨key_lt, key_ne⟩
  | step steps =>
      cases steps with
      | idle next grows => exact ⟨Nat.lt_of_lt_of_le key_lt grows, key_ne⟩
      | enter entry next waits entryKey fresh =>
          have newer := Nat.lt_of_lt_of_le key_lt entryKey.1
          refine ⟨Nat.lt_trans newer entryKey.2, fun other listed => ?_⟩
          rcases List.mem_append.mp listed with old | new
          · exact key_ne other old
          · rw [List.mem_singleton.mp new]
            exact Nat.ne_of_gt newer
      | answer entry listed waits =>
          refine ⟨key_lt, fun answered mem => ?_⟩
          obtain ⟨other, otherListed, rfl⟩ := List.mem_map.mp mem
          rw [Entry.key_answer]
          exact key_ne other otherListed
      | sweep expires names waiting expired =>
          exact ⟨key_lt,
            fun entry mem => key_ne entry (List.mem_of_mem_filter mem)⟩

end Strays

end Ledger
