import Mathlib.Data.List.Basic

/-!
# Streams between two ends

Calls at one end of a stream pass something on, and calls at its other end take
some of what waits.  Each call tells its caller something about what it has
moved.  When every call that reads takes the first of what waits, what has been
read is what was written, in its order, up to what still waits.
-/

namespace ByteStream

universe u v w x

variable {W : Type u} {R : Type v} {τ : Type w} {β : Type x}

/-- What a call comes to: what it returns, and what it has moved. -/
structure Result (τ : Type w) (β : Type x) where
  ret : τ
  bytes : List β

/-- The two ends: what a call that writes comes to, and what a call that reads
comes to and leaves behind, where they return. -/
structure Ends (W : Type u) (R : Type v) (τ : Type w) (β : Type x) where
  write : W → Option (Result τ β)
  read : R → List β → Option (Result τ β × List β)

/-- What is on its way, and what each call so far has come to. -/
structure Traffic (W : Type u) (R : Type v) (τ : Type w) (β : Type x) where
  waiting : List β
  written : List (W × Result τ β)
  read : List (R × Result τ β)

/-- Nothing has happened. -/
def Traffic.none : Traffic W R τ β := ⟨[], [], []⟩

/-- What some calls have moved. -/
def passed {C : Type v} (calls : List (C × Result τ β)) : List β :=
  calls.flatMap fun call => call.2.bytes

namespace Ends

/-- A call at one of the ends, where it returns. -/
def perform (ends : Ends W R τ β) (t : Traffic W R τ β) :
    W ⊕ R → Option (Traffic W R τ β)
  | .inl call =>
      (ends.write call).map fun result =>
        { t with
          waiting := t.waiting ++ result.bytes
          written := t.written ++ [(call, result)] }
  | .inr call =>
      (ends.read call t.waiting).map fun done =>
        { t with
          waiting := done.2
          read := t.read ++ [(call, done.1)] }

/-- Calls at both ends in some order. -/
def run (ends : Ends W R τ β) (t : Traffic W R τ β) (calls : List (W ⊕ R)) :
    Option (Traffic W R τ β) :=
  calls.foldlM ends.perform t

/-- Every call that returns tells the truth, and one that reads takes the first
of what waits. -/
structure Sound (ends : Ends W R τ β) (writes : W → Result τ β → Prop)
    (reads : R → Result τ β → Prop) : Prop where
  write : ∀ {call result}, ends.write call = some result → writes call result
  read : ∀ {call waiting result behind},
    ends.read call waiting = some (result, behind) →
      result.bytes ++ behind = waiting ∧ reads call result

end Ends

/-- Nothing is lost, repeated or put out of order, and every call has told the
truth. -/
structure Traffic.InOrder (t : Traffic W R τ β)
    (writes : W → Result τ β → Prop) (reads : R → Result τ β → Prop) :
    Prop where
  bytes : passed t.read ++ t.waiting = passed t.written
  written : ∀ call ∈ t.written, writes call.1 call.2
  read : ∀ call ∈ t.read, reads call.1 call.2

theorem passed_concat {C : Type v} (calls : List (C × Result τ β))
    (call : C × Result τ β) :
    passed (calls ++ [call]) = passed calls ++ call.2.bytes := by
  rw [passed, List.flatMap_append, List.flatMap_singleton]
  rfl

/-- What is taken from the front of what waits is not lost. -/
theorem append_take_append_drop (got waiting : List β) (count : Nat) :
    (got ++ waiting.take count) ++ waiting.drop (waiting.take count).length =
      got ++ waiting := by
  have chunk := List.prefix_iff_eq_take.mp (List.take_prefix count waiting)
  have all := List.take_append_drop (waiting.take count).length waiting
  rw [← chunk] at all
  rw [List.append_assoc, all]

/-- What holds of all calls and of one more. -/
theorem forall_mem_concat {α : Type u} {property : α → Prop} {calls : List α}
    {call : α} (all : ∀ other ∈ calls, property other)
    (last : property call) : ∀ other ∈ calls ++ [call], property other := by
  intro other mem
  rcases List.mem_append.mp mem with old | new
  · exact all other old
  · exact List.mem_singleton.mp new ▸ last

namespace Ends

variable {ends : Ends W R τ β} {writes : W → Result τ β → Prop}
  {reads : R → Result τ β → Prop}

theorem Sound.perform (sound : ends.Sound writes reads)
    {t t' : Traffic W R τ β} (inOrder : t.InOrder writes reads) {call : W ⊕ R}
    (performs : ends.perform t call = some t') : t'.InOrder writes reads := by
  cases call with
  | inl call =>
      obtain ⟨result, returns, rfl⟩ := Option.map_eq_some_iff.mp performs
      refine ⟨?_, forall_mem_concat inOrder.written (sound.write returns),
        inOrder.read⟩
      rw [passed_concat, ← inOrder.bytes, List.append_assoc]
  | inr call =>
      obtain ⟨⟨result, behind⟩, returns, rfl⟩ :=
        Option.map_eq_some_iff.mp performs
      obtain ⟨all, tells⟩ := sound.read returns
      refine ⟨?_, inOrder.written, forall_mem_concat inOrder.read tells⟩
      rw [passed_concat, ← inOrder.bytes, ← all, List.append_assoc]

/-- Calls in any order keep the stream in order. -/
theorem Sound.run (sound : ends.Sound writes reads)
    {t t' : Traffic W R τ β} (inOrder : t.InOrder writes reads)
    {calls : List (W ⊕ R)} (runs : ends.run t calls = some t') :
    t'.InOrder writes reads := by
  unfold Ends.run at runs
  induction calls generalizing t with
  | nil => exact Option.some.inj runs ▸ inOrder
  | cons call calls inductionHypothesis =>
      rw [List.foldlM_cons] at runs
      obtain ⟨next, performs, rest⟩ := Option.bind_eq_some_iff.mp runs
      exact inductionHypothesis (sound.perform inOrder performs) rest

theorem Sound.run_none (sound : ends.Sound writes reads)
    {t : Traffic W R τ β} {calls : List (W ⊕ R)}
    (runs : ends.run .none calls = some t) : t.InOrder writes reads :=
  sound.run ⟨rfl, List.forall_mem_nil _, List.forall_mem_nil _⟩ runs

/-- Calls that return whatever waits return one after the other. -/
theorem isSome_run {calls : List (W ⊕ R)}
    (returns : ∀ call ∈ calls, ∀ t, (ends.perform t call).isSome)
    (t : Traffic W R τ β) : (ends.run t calls).isSome := by
  induction calls generalizing t with
  | nil => rfl
  | cons call calls inductionHypothesis =>
      obtain ⟨first, others⟩ := List.forall_mem_cons.mp returns
      obtain ⟨next, performs⟩ := Option.isSome_iff_exists.mp (first t)
      have rest := inductionHypothesis others next
      unfold Ends.run at rest ⊢
      rw [List.foldlM_cons, performs]
      exact rest

end Ends

end ByteStream
