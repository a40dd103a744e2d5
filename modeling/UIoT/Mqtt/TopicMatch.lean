import UIoT.Defs
import UIoT.Library.Levels

/-!
# Topic matching

`_is_topic_matched` walks a topic filter and a topic name at once.  Level by
level it accepts everything the matching rules of MQTT accept, and two kinds
of names more: a last literal level that is only part of the level it stands
for when `/#` follows, and an empty last level under a `+` that is not the end
of the filter.
-/

namespace UIoT
namespace Mqtt

open Levels (LevelPattern Matches)
open Levels.LevelPattern

/-- `'/'` -/
def slash : UInt8 := 47

/-- `'+'` -/
def plus : UInt8 := 43

/-- `'#'` -/
def hash : UInt8 := 35

/-! ## The code -/

/-- `_is_topic_equals` -/
def isTopicEquals (topicFilter topicName : CString) : Bool :=
  topicFilter.bytes.length == topicName.bytes.length &&
    topicFilter.bytes == topicName.bytes

/-- The pointers of `_is_topic_matched`: what is left of the filter, the byte
in front of `curn`, and the name from `curn` up to its end. -/
structure Walk where
  curf : List UInt8
  before : UInt8
  curn : List UInt8
  deriving DecidableEq, Repr

/-- The inner loop, which advances `curn` to the last byte of its level, and
the increment behind it. -/
def skipLevel (current : UInt8) : List UInt8 → UInt8 × List UInt8
  | [] => (current, [])
  | next :: curn =>
      if next = slash then (current, next :: curn) else skipLevel next curn

/-- The loop of `_is_topic_matched`. -/
def matchLoop : (curf : List UInt8) → (before : UInt8) →
    (curn : List UInt8) → Walk
  | [], before, curn => ⟨[], before, curn⟩
  | f :: curf, before, [] => ⟨f :: curf, before, []⟩
  | f :: curf, before, n :: curn =>
      if f = plus ∧ n = slash then
        matchLoop curf before (n :: curn)
      else if n = slash ∧ f ≠ slash then
        ⟨f :: curf, before, n :: curn⟩
      else if f ≠ plus ∧ f ≠ hash ∧ f ≠ n then
        ⟨f :: curf, before, n :: curn⟩
      else if f = plus then
        matchLoop curf (skipLevel n curn).1 (skipLevel n curn).2
      else if f = hash then
        matchLoop curf ((n :: curn).getLast (List.cons_ne_nil n curn)) []
      else
        matchLoop curf n curn

/-- The answer once the loop has stopped. -/
def Walk.answer (walk : Walk) : Bool :=
  match walk.curf with
  | [] => walk.curn.isEmpty
  | f :: curf =>
      f == hash || curf.headD 0 == hash || (f == plus && walk.before == slash)

/-- `_is_topic_matched`.  The name is given by the bytes from `topicName` on,
and the byte in front of them, which matters to an empty name only. -/
def isTopicMatched (topicFilter : CString) (before : UInt8)
    (topicName : List UInt8) (topicNameLen : UInt16) : Bool :=
  (matchLoop topicFilter.bytes before
    (topicName.take topicNameLen.toNat)).answer

/-- The test of `_deliver_message`. -/
def isDispatched (topicFilter : CString) (before : UInt8)
    (topicName : List UInt8) (topicNameLen : UInt16) : Bool :=
  isTopicEquals (CString.ofArray topicName) topicFilter ||
    isTopicMatched topicFilter before topicName topicNameLen

theorem answer_cons (f : UInt8) (curf : List UInt8) (before : UInt8)
    (curn : List UInt8) :
    Walk.answer ⟨f :: curf, before, curn⟩ =
      (f == hash || curf.headD 0 == hash || (f == plus && before == slash)) :=
  rfl

/-! ## Filters and names -/

/-- The pattern a level of a filter stands for. -/
def classify (level : List UInt8) : LevelPattern (List UInt8) :=
  if level = [plus] then anyOne
  else if level = [hash] then anyRest
  else exactly level

/-- The text of a pattern. -/
def render : LevelPattern (List UInt8) → List UInt8
  | exactly level => level
  | anyOne => [plus]
  | anyRest => [hash]

@[simp] theorem render_classify (level : List UInt8) :
    render (classify level) = level := by
  unfold classify
  split
  · simp [render, *]
  · split <;> simp [render, *]

/-- No wildcard character occurs in the text. -/
def WildcardFree (text : List UInt8) : Prop := plus ∉ text ∧ hash ∉ text

instance decidableWildcardFree (text : List UInt8) :
    Decidable (WildcardFree text) :=
  inferInstanceAs (Decidable (_ ∧ _))

/-- A level of a filter is a wildcard or contains none. -/
def LevelValid : LevelPattern (List UInt8) → Prop
  | exactly level => WildcardFree level
  | anyOne => True
  | anyRest => True

instance decidableLevelValid :
    (pattern : LevelPattern (List UInt8)) → Decidable (LevelValid pattern)
  | exactly level => inferInstanceAs (Decidable (WildcardFree level))
  | anyOne => inferInstanceAs (Decidable True)
  | anyRest => inferInstanceAs (Decidable True)

/-- A topic filter whose wildcards are whole levels, the `#` the last one. -/
structure TopicFilter where
  text : CString
  levels_valid :
    ∀ level ∈ text.bytes.splitOn slash, LevelValid (classify level)
  restLast : Levels.RestLast ((text.bytes.splitOn slash).map classify)

/-- The level patterns of a filter. -/
def TopicFilter.levels (topicFilter : TopicFilter) :
    List (LevelPattern (List UInt8)) :=
  (topicFilter.text.bytes.splitOn slash).map classify

/-- A topic name, with a length its length field can hold. -/
structure TopicName where
  text : CString
  nonempty : text.bytes ≠ []
  wildcardFree : WildcardFree text.bytes
  length_lt : text.bytes.length < 2 ^ 16

/-- The levels of a topic name. -/
def TopicName.levels (topicName : TopicName) : List (List UInt8) :=
  topicName.text.bytes.splitOn slash

/-- Whether `_deliver_message` hands a message on the topic to a filter. -/
def TopicFilter.dispatches (topicFilter : TopicFilter) (topicName : TopicName)
    (before : UInt8) : Bool :=
  isDispatched topicFilter.text before (topicName.text.bytes ++ [0])
    (UInt16.ofNat topicName.text.bytes.length)

/-! ## The loop on one level -/

section Loop

variable {level head : List UInt8} {patterns : List (LevelPattern (List UInt8))}

/-- A level that is in both texts is passed. -/
theorem matchLoop_same (wild : WildcardFree level) (curf : List UInt8)
    (before : UInt8) (curn : List UInt8) :
    ∃ last, matchLoop (level ++ curf) before (level ++ curn) =
      matchLoop curf last curn := by
  induction level generalizing before with
  | nil => exact ⟨before, rfl⟩
  | cons byte level inductionHypothesis =>
      simp only [WildcardFree, List.mem_cons, not_or] at wild
      obtain ⟨last, passed⟩ :=
        inductionHypothesis ⟨wild.1.2, wild.2.2⟩ byte
      refine ⟨last, ?_⟩
      rw [← passed, List.cons_append, List.cons_append, matchLoop]
      have notPlus : byte ≠ plus := Ne.symm wild.1.1
      have notHash : byte ≠ hash := Ne.symm wild.2.1
      simp [notPlus, notHash]

/-- The separators between two levels are passed. -/
theorem matchLoop_slash (curf : List UInt8) (before : UInt8)
    (curn : List UInt8) :
    matchLoop (slash :: curf) before (slash :: curn) =
      matchLoop curf slash curn := rfl

/-- Stopping inside a literal level is a mismatch. -/
theorem answer_literal {byte : UInt8} (wild : WildcardFree (byte :: level))
    (before : UInt8) (curn : List UInt8) :
    Walk.answer ⟨byte :: (level ++ Levels.behind slash (patterns.map render)),
      before, curn⟩ = false := by
  simp only [WildcardFree, List.mem_cons, not_or] at wild
  have notPlus : byte ≠ plus := Ne.symm wild.1.1
  have notHash : byte ≠ hash := Ne.symm wild.2.1
  have next : (level ++ Levels.behind slash (patterns.map render)).headD 0 ≠
      hash := by
    cases level with
    | cons second level =>
        rintro rfl
        exact wild.2.2 List.mem_cons_self
    | nil =>
        cases patterns with
        | nil => exact (by decide : (0 : UInt8) ≠ hash)
        | cons pattern patterns => exact (by decide : slash ≠ hash)
  rw [answer_cons, beq_eq_false_iff_ne.mpr notHash,
    beq_eq_false_iff_ne.mpr next, beq_eq_false_iff_ne.mpr notPlus]
  rfl

/-- Stopping in front of a separator is a match when `#` is all that
follows. -/
theorem answer_behind {pattern : LevelPattern (List UInt8)}
    (valid : LevelValid pattern) (restLast : Levels.RestLast (pattern :: patterns))
    (before : UInt8) (curn : List UInt8) :
    Walk.answer ⟨Levels.behind slash ((pattern :: patterns).map render),
      before, curn⟩ = true ↔ pattern :: patterns = [anyRest] := by
  have answer_eq :
      Walk.answer ⟨Levels.behind slash ((pattern :: patterns).map render),
        before, curn⟩ =
      ((render pattern ++ Levels.behind slash (patterns.map render)).headD 0 ==
        hash) := by
    rw [List.map_cons, Levels.behind_cons, answer_cons,
      show (slash == hash) = false by decide,
      show (slash == plus) = false by decide, Bool.false_or, Bool.false_and,
      Bool.or_false]
  rw [answer_eq, beq_iff_eq]
  cases pattern with
  | anyOne => exact iff_of_false (by decide : plus ≠ hash) (by simp)
  | anyRest => exact iff_of_true rfl (by rw [restLast.eq_nil])
  | exactly level =>
      refine iff_of_false ?_ (by simp)
      cases level with
      | cons byte level =>
          rintro rfl
          exact valid.2 List.mem_cons_self
      | nil =>
          cases patterns with
          | nil => exact (by decide : (0 : UInt8) ≠ hash)
          | cons next patterns => exact (by decide : slash ≠ hash)

/-- A literal level of the filter that is not the level of the name is taken
for it if it is a part of it and `#` is all that follows. -/
theorem matchLoop_differ (wild : WildcardFree level)
    (filterCut : slash ∉ level) (nameCut : slash ∉ head)
    (valid : ∀ pattern ∈ patterns, LevelValid pattern)
    (restLast : Levels.RestLast patterns) (differ : level ≠ head)
    (before : UInt8) (levels : List (List UInt8)) :
    (matchLoop (level ++ Levels.behind slash (patterns.map render)) before
        (head ++ Levels.behind slash levels)).answer = true ↔
      level <+: head ∧ patterns = [anyRest] := by
  induction level generalizing head before with
  | nil =>
      obtain ⟨next, head, rfl⟩ := List.exists_cons_of_ne_nil differ.symm
      rw [and_iff_right List.nil_prefix]
      cases patterns with
      | nil => exact iff_of_false (by simp [matchLoop, Walk.answer]) (by simp)
      | cons pattern patterns =>
          have notSlash : next ≠ slash := by
            rintro rfl
            exact nameCut List.mem_cons_self
          rw [← answer_behind (valid pattern List.mem_cons_self) restLast
            before (next :: (head ++ Levels.behind slash levels))]
          simp [matchLoop, notSlash, notSlash.symm,
            show slash ≠ plus by decide, show slash ≠ hash by decide]
  | cons byte level inductionHypothesis =>
      have notPlus : byte ≠ plus := by
        rintro rfl
        exact wild.1 List.mem_cons_self
      have notHash : byte ≠ hash := by
        rintro rfl
        exact wild.2 List.mem_cons_self
      have notSlash : byte ≠ slash := by
        rintro rfl
        exact filterCut List.mem_cons_self
      have mismatch : ∀ curn, Walk.answer
          ⟨byte :: (level ++ Levels.behind slash (patterns.map render)),
            before, curn⟩ = false :=
        answer_literal wild before
      cases head with
      | nil =>
          refine iff_of_false ?_ (by simp)
          rw [Bool.not_eq_true]
          cases levels with
          | nil => exact mismatch []
          | cons second levels =>
              rw [← mismatch (Levels.behind slash (second :: levels))]
              simp [matchLoop, notPlus, notSlash]
      | cons next head =>
          have nextNotSlash : next ≠ slash := by
            rintro rfl
            exact nameCut List.mem_cons_self
          by_cases same : byte = next
          · subst same
            have restCut : slash ∉ head :=
              fun mem => nameCut (List.mem_cons_of_mem _ mem)
            rw [List.cons_prefix_cons, and_iff_right rfl,
              ← inductionHypothesis
                ⟨fun mem => wild.1 (List.mem_cons_of_mem _ mem),
                  fun mem => wild.2 (List.mem_cons_of_mem _ mem)⟩
                (fun mem => filterCut (List.mem_cons_of_mem _ mem)) restCut
                (fun equal => differ (by rw [equal])) byte]
            simp [matchLoop, notPlus, notHash, notSlash]
          · refine iff_of_false ?_ fun parts =>
              same (List.cons_prefix_cons.mp parts.1).1
            rw [Bool.not_eq_true, ← mismatch
              (next :: (head ++ Levels.behind slash levels))]
            simp [matchLoop, notPlus, notHash, nextNotSlash, same]

/-- Skipping to the end of a level. -/
theorem skipLevel_level (nameCut : slash ∉ head) (current : UInt8)
    (levels : List (List UInt8)) :
    (skipLevel current (head ++ Levels.behind slash levels)).2 =
      Levels.behind slash levels := by
  induction head generalizing current with
  | nil =>
      cases levels with
      | nil => rfl
      | cons second levels => simp [skipLevel]
  | cons next head inductionHypothesis =>
      simp only [List.mem_cons, not_or] at nameCut
      have notSlash : next ≠ slash := Ne.symm nameCut.1
      rw [List.cons_append, skipLevel, if_neg notSlash]
      exact inductionHypothesis nameCut.2 next

/-- `+` passes a level, unless the name ends in front of it. -/
theorem matchLoop_plus (nameCut : slash ∉ head) (curf : List UInt8)
    (before : UInt8) {levels : List (List UInt8)}
    (more : head ≠ [] ∨ levels ≠ []) :
    ∃ last, matchLoop (plus :: curf) before
        (head ++ Levels.behind slash levels) =
      matchLoop curf last (Levels.behind slash levels) := by
  cases head with
  | nil =>
      obtain ⟨second, levels, rfl⟩ :=
        List.exists_cons_of_ne_nil (more.resolve_left (fun some => some rfl))
      exact ⟨before, by simp [matchLoop]⟩
  | cons next head =>
      simp only [List.mem_cons, not_or] at nameCut
      have notSlash : next ≠ slash := Ne.symm nameCut.1
      refine ⟨(skipLevel next (head ++ Levels.behind slash levels)).1, ?_⟩
      rw [List.cons_append, matchLoop]
      simp [notSlash, skipLevel_level nameCut.2]

/-- `#` at the end of the filter matches whatever is left. -/
theorem answer_hash (before : UInt8) (curn : List UInt8) :
    (matchLoop [hash] before curn).answer = true := by
  cases curn with
  | nil => rfl
  | cons next curn =>
      by_cases cut : next = slash
      · subst cut
        rfl
      · simp [matchLoop, cut, Walk.answer, show hash ≠ plus by decide]

end Loop

/-! ## Accepting level by level -/

/-- What the code accepts, level by level. -/
def Accepts : List (LevelPattern (List UInt8)) → List (List UInt8) → Prop
  | [], levels => levels = []
  | patterns, [] => patterns = [anyRest]
  | anyRest :: _, _ :: _ => True
  | anyOne :: patterns, head :: levels =>
      (head = [] ∧ levels = []) ∨ Accepts patterns levels
  | exactly level :: patterns, head :: levels =>
      (level = head ∧ Accepts patterns levels) ∨
        (level ≠ head ∧ level <+: head ∧ patterns = [anyRest])

section Accepting

variable {pattern : LevelPattern (List UInt8)}
  {patterns : List (LevelPattern (List UInt8))}
  {head : List UInt8} {levels : List (List UInt8)}

/-- One level of the filter against one level of the name, given what becomes
of the levels behind them. -/
theorem answer_level
    (valid : ∀ level ∈ pattern :: patterns, LevelValid level)
    (filterCut : slash ∉ render pattern)
    (restLast : Levels.RestLast (pattern :: patterns))
    (nameCut : slash ∉ head) {before : UInt8}
    (start : before = slash ∨ head ≠ [] ∨ levels ≠ [])
    (rest : ∀ last,
      (matchLoop (Levels.behind slash (patterns.map render)) last
        (Levels.behind slash levels)).answer = true ↔
      Accepts patterns levels) :
    (matchLoop
        (render pattern ++ Levels.behind slash (patterns.map render)) before
        (head ++ Levels.behind slash levels)).answer = true ↔
      Accepts (pattern :: patterns) (head :: levels) := by
  have patternValid := valid pattern List.mem_cons_self
  cases pattern with
  | anyRest =>
      rw [restLast.eq_nil]
      exact iff_of_true (answer_hash ..) trivial
  | anyOne =>
      by_cases atEnd : head = [] ∧ levels = []
      · obtain ⟨rfl, rfl⟩ := atEnd
        have before_eq : before = slash := by simpa using start
        refine iff_of_true ?_ (.inl ⟨rfl, rfl⟩)
        subst before_eq
        simp [render, matchLoop, answer_cons]
      · obtain ⟨last, passed⟩ := matchLoop_plus nameCut
          (Levels.behind slash (patterns.map render)) before
          (not_and_or.mp atEnd)
        rw [Accepts, or_iff_right atEnd, ← rest last, ← passed]
        rfl
  | exactly level =>
      by_cases same : level = head
      · subst same
        obtain ⟨last, passed⟩ := matchLoop_same patternValid
          (Levels.behind slash (patterns.map render)) before
          (Levels.behind slash levels)
        rw [render, passed, rest last]
        simp [Accepts]
      · rw [render, matchLoop_differ patternValid filterCut nameCut
          (fun other mem => valid other (List.mem_cons_of_mem _ mem))
          restLast.tail same]
        simp [Accepts, same]

/-- The loop accepts a name exactly when its levels are accepted. -/
theorem answer_iff_accepts
    (valid : ∀ level ∈ pattern :: patterns, LevelValid level)
    (filterCut : ∀ level ∈ pattern :: patterns, slash ∉ render level)
    (restLast : Levels.RestLast (pattern :: patterns))
    (nameCut : ∀ level ∈ head :: levels, slash ∉ level) {before : UInt8}
    (start : before = slash ∨ head ≠ [] ∨ levels ≠ []) :
    (matchLoop
        (render pattern ++ Levels.behind slash (patterns.map render)) before
        (head ++ Levels.behind slash levels)).answer = true ↔
      Accepts (pattern :: patterns) (head :: levels) := by
  induction patterns generalizing pattern head levels before with
  | nil =>
      refine answer_level valid (filterCut _ List.mem_cons_self) restLast
        (nameCut _ List.mem_cons_self) start fun last => ?_
      cases levels <;> simp [Accepts, matchLoop, Walk.answer]
  | cons next patterns inductionHypothesis =>
      refine answer_level valid (filterCut _ List.mem_cons_self) restLast
        (nameCut _ List.mem_cons_self) start fun last => ?_
      rw [List.forall_mem_cons] at valid filterCut nameCut
      cases levels with
      | nil =>
          rw [Accepts, ← answer_behind (valid.2 next List.mem_cons_self)
            restLast.tail last []]
          · rfl
          · simp
      | cons second levels =>
          rw [List.map_cons, Levels.behind_cons, Levels.behind_cons,
            matchLoop_slash]
          exact inductionHypothesis valid.2 filterCut.2 restLast.tail
            nameCut.2 (.inl rfl)

end Accepting

/-! ## Accepting and matching -/

/-- A literal level in front of a closing `#` is only a part of its level. -/
def MatchesPartialLevel (patterns : List (LevelPattern (List UInt8)))
    (levels : List (List UInt8)) : Prop :=
  ∃ front part passed whole others,
    patterns = front ++ [exactly part, anyRest] ∧
      levels = passed ++ whole :: others ∧
      Matches front passed ∧ part <+: whole ∧ part ≠ whole

/-- The name ends with an empty level that meets a `+`, and more than `#`
follows in the filter. -/
def MatchesEmptyEnd (patterns : List (LevelPattern (List UInt8)))
    (levels : List (List UInt8)) : Prop :=
  ∃ front behind passed,
    patterns = front ++ anyOne :: behind ∧ levels = passed ++ [[]] ∧
      Matches front passed ∧ behind ≠ [] ∧ behind ≠ [anyRest]

section Compare

variable {patterns : List (LevelPattern (List UInt8))}
  {levels : List (List UInt8)}

/-- Levels that match are accepted. -/
theorem accepts_of_matches (restLast : Levels.RestLast patterns)
    (isMatch : Matches patterns levels) :
    Accepts patterns levels := by
  induction patterns generalizing levels with
  | nil => exact isMatch
  | cons pattern patterns inductionHypothesis =>
      cases levels with
      | nil => simpa [Accepts] using (Levels.matches_nil_right_iff restLast).mp isMatch
      | cons head levels =>
          cases pattern with
          | anyRest => trivial
          | anyOne => exact .inr (inductionHypothesis restLast.tail isMatch)
          | exactly level =>
              exact .inl ⟨isMatch.1,
                inductionHypothesis restLast.tail isMatch.2⟩

/-- Accepted levels may follow levels that match. -/
theorem accepts_append {front : List (LevelPattern (List UInt8))}
    {passed : List (List UInt8)} (single : anyRest ∉ front)
    (isMatch : Matches front passed) (accepted : Accepts patterns levels) :
    Accepts (front ++ patterns) (passed ++ levels) := by
  induction front generalizing passed with
  | nil =>
      rw [Levels.matches_nil] at isMatch
      rw [isMatch]
      exact accepted
  | cons pattern front inductionHypothesis =>
      rw [List.mem_cons, not_or] at single
      cases passed with
      | nil => cases pattern <;> simp_all
      | cons head passed =>
          cases pattern with
          | anyRest => exact absurd rfl single.1
          | anyOne => exact .inr (inductionHypothesis single.2 isMatch)
          | exactly level =>
              exact .inl ⟨isMatch.1,
                inductionHypothesis single.2 isMatch.2⟩

/-- A matching level in front changes none of the three cases. -/
theorem cases_cons {pattern : LevelPattern (List UInt8)} {head : List UInt8}
    (one : Matches [pattern] [head]) (notRest : pattern ≠ anyRest)
    (cases : Matches patterns levels ∨ MatchesPartialLevel patterns levels ∨
      MatchesEmptyEnd patterns levels) :
    Matches (pattern :: patterns) (head :: levels) ∨
      MatchesPartialLevel (pattern :: patterns) (head :: levels) ∨
      MatchesEmptyEnd (pattern :: patterns) (head :: levels) := by
  have single : anyRest ∉ [pattern] := by simpa using notRest.symm
  have extend : ∀ front passed,
      Matches front passed → Matches (pattern :: front) (head :: passed) :=
    fun front passed => (Levels.matches_append_iff one single front passed).mpr
  rcases cases with isMatch |
    ⟨front, part, passed, whole, others, rfl, rfl, isMatch, partial'⟩ |
    ⟨front, behind, passed, rfl, rfl, isMatch, more⟩
  · exact .inl (extend _ _ isMatch)
  · exact .inr (.inl ⟨pattern :: front, part, head :: passed, whole, others,
      rfl, rfl, extend _ _ isMatch, partial'⟩)
  · exact .inr (.inr ⟨pattern :: front, behind, head :: passed, rfl, rfl,
      extend _ _ isMatch, more⟩)

/-- What is accepted matches, or is of one of the two kinds. -/
theorem accepts_cases (restLast : Levels.RestLast patterns)
    (accepted : Accepts patterns levels) :
    Matches patterns levels ∨ MatchesPartialLevel patterns levels ∨
      MatchesEmptyEnd patterns levels := by
  induction patterns generalizing levels with
  | nil => exact .inl accepted
  | cons pattern patterns inductionHypothesis =>
      cases levels with
      | nil =>
          have onlyRest : pattern :: patterns = [anyRest] := accepted
          rw [onlyRest]
          exact .inl trivial
      | cons head levels =>
          cases pattern with
          | anyRest => exact .inl trivial
          | anyOne =>
              rcases accepted with ⟨rfl, rfl⟩ | accepted
              · by_cases behind : patterns = [] ∨ patterns = [anyRest]
                · exact .inl
                    ((Levels.matches_nil_right_iff restLast.tail).mpr behind)
                · exact .inr (.inr ⟨[], patterns, [], rfl, rfl, rfl,
                    not_or.mp behind⟩)
              · exact cases_cons rfl (by simp)
                  (inductionHypothesis restLast.tail accepted)
          | exactly level =>
              rcases accepted with ⟨rfl, accepted⟩ | ⟨differ, part, rfl⟩
              · exact cases_cons ⟨rfl, rfl⟩ (by simp)
                  (inductionHypothesis restLast.tail accepted)
              · exact .inr (.inl ⟨[], level, [], head, levels, rfl, rfl, rfl,
                  part, differ⟩)

/-- Names of the first kind are accepted and do not match. -/
theorem MatchesPartialLevel.accepts_not_matches
    (restLast : Levels.RestLast patterns)
    (kind : MatchesPartialLevel patterns levels) :
    Accepts patterns levels ∧ ¬Matches patterns levels := by
  obtain ⟨front, part, passed, whole, others, rfl, rfl, isMatch, isPart,
    differ⟩ := kind
  have single : anyRest ∉ front := restLast.not_mem_left
  constructor
  · exact accepts_append single isMatch (.inr ⟨differ, isPart, rfl⟩)
  · rw [Levels.matches_append_iff isMatch single]
    exact fun both => differ both.1

/-- So are names of the second kind. -/
theorem MatchesEmptyEnd.accepts_not_matches
    (restLast : Levels.RestLast patterns)
    (kind : MatchesEmptyEnd patterns levels) :
    Accepts patterns levels ∧ ¬Matches patterns levels := by
  obtain ⟨front, behind, passed, rfl, rfl, isMatch, some, notRest⟩ := kind
  have single : anyRest ∉ front := restLast.not_mem_left
  have behindRestLast : Levels.RestLast behind := restLast.of_append.tail
  constructor
  · exact accepts_append single isMatch (.inl ⟨rfl, rfl⟩)
  · rw [Levels.matches_append_iff isMatch single, Levels.matches_anyOne_cons,
      Levels.matches_nil_right_iff behindRestLast]
    exact not_or.mpr ⟨some, notRest⟩

end Compare

/-! ## The dispatch test -/

/-- The matching walk accepts what the comparison accepts. -/
theorem dispatches_eq_answer (topicFilter : TopicFilter)
    (topicName : TopicName) (before : UInt8) :
    topicFilter.dispatches topicName before =
      (matchLoop topicFilter.text.bytes before topicName.text.bytes).answer := by
  have lengthSmall := topicName.length_lt
  have wholeName :
      (topicName.text.bytes ++ [0]).take
        (UInt16.ofNat topicName.text.bytes.length).toNat =
      topicName.text.bytes := by
    rw [UInt16.toNat_ofNat_of_lt' lengthSmall]
    exact List.take_left
  have equalMatches : isTopicEquals topicName.text topicFilter.text = true →
      (matchLoop topicFilter.text.bytes before
        topicName.text.bytes).answer = true := by
    intro equal
    have bytes_eq : topicName.text.bytes = topicFilter.text.bytes := by
      simpa using (Bool.and_eq_true_iff.mp equal).2
    obtain ⟨last, passed⟩ :=
      matchLoop_same topicName.wildcardFree [] before []
    rw [List.append_nil] at passed
    rw [← bytes_eq, passed]
    rfl
  rw [TopicFilter.dispatches, isDispatched, isTopicMatched, wholeName,
    CString.ofArray_terminated]
  cases equal : isTopicEquals topicName.text topicFilter.text with
  | true => rw [equalMatches equal, Bool.or_self]
  | false => rw [Bool.false_or]

/-- The dispatch test accepts a name exactly when its levels are accepted. -/
theorem dispatches_iff_accepts (topicFilter : TopicFilter)
    (topicName : TopicName) (before : UInt8) :
    topicFilter.dispatches topicName before = true ↔
      Accepts topicFilter.levels topicName.levels := by
  rw [dispatches_eq_answer]
  obtain ⟨first, others, filterParts⟩ := List.exists_cons_of_ne_nil
    (List.splitOn_ne_nil slash topicFilter.text.bytes)
  obtain ⟨head, rest, nameParts⟩ := List.exists_cons_of_ne_nil
    (List.splitOn_ne_nil slash topicName.text.bytes)
  have filterBytes : topicFilter.text.bytes =
      render (classify first) ++
        Levels.behind slash ((others.map classify).map render) := by
    have joined := Levels.intercalate_splitOn slash filterParts
    simpa [Function.comp_def] using joined
  have nameBytes : topicName.text.bytes =
      head ++ Levels.behind slash rest := by
    exact Levels.intercalate_splitOn slash nameParts
  have filterLevels : topicFilter.levels =
      classify first :: others.map classify := by
    rw [TopicFilter.levels, filterParts, List.map_cons]
  have nameLevels : topicName.levels = head :: rest := nameParts
  rw [filterBytes, nameBytes, filterLevels, nameLevels]
  refine answer_iff_accepts ?_ ?_ ?_ ?_ ?_
  · rw [← List.map_cons, ← filterParts, List.forall_mem_map]
    exact topicFilter.levels_valid
  · rw [← List.map_cons, ← filterParts, List.forall_mem_map]
    intro level mem
    rw [render_classify]
    exact Levels.separator_not_mem_of_mem_splitOn mem
  · rw [← filterLevels]
    exact topicFilter.restLast
  · rw [← nameParts]
    exact fun level mem => Levels.separator_not_mem_of_mem_splitOn mem
  · right
    by_contra neither
    obtain ⟨headNil, restNil⟩ := not_or.mp neither
    apply topicName.nonempty
    rw [nameBytes, not_not.mp headNil, not_not.mp restNil]
    rfl

/-- The dispatch test agrees with the matching rules on a filter and a name
exactly when the name is of neither kind. -/
theorem dispatches_agrees_iff (topicFilter : TopicFilter)
    (topicName : TopicName) (before : UInt8) :
    ((topicFilter.dispatches topicName before = true) ↔
        Matches topicFilter.levels topicName.levels) ↔
      ¬(MatchesPartialLevel topicFilter.levels topicName.levels ∨
        MatchesEmptyEnd topicFilter.levels topicName.levels) := by
  have restLast : Levels.RestLast topicFilter.levels := topicFilter.restLast
  rw [dispatches_iff_accepts]
  constructor
  · rintro agree (kind | kind)
    · have wrong := kind.accepts_not_matches restLast
      exact wrong.2 (agree.mp wrong.1)
    · have wrong := kind.accepts_not_matches restLast
      exact wrong.2 (agree.mp wrong.1)
  · intro neither
    refine ⟨fun accepted => ?_, accepts_of_matches restLast⟩
    exact (accepts_cases restLast accepted).resolve_right neither

/-- The filter `a/#` is handed messages on the topic `ab`. -/
theorem dispatches_not_matching :
    ¬∀ (topicFilter : TopicFilter) (topicName : TopicName) (before : UInt8),
      topicFilter.dispatches topicName before = true ↔
        Matches topicFilter.levels topicName.levels := by
  intro agree
  let belowA : TopicFilter :=
    ⟨⟨[97, slash, hash], by decide⟩, by decide, by decide⟩
  let ab : TopicName := ⟨⟨[97, 98], by decide⟩, by decide, by decide, by decide⟩
  have wrong := agree belowA ab 0
  revert wrong
  decide

end Mqtt
end UIoT
