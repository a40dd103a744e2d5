import Mathlib.Data.List.Nodup
import UIoT.Shadow.AllOrNothing

/-!
# Messages and the requests they answer

A handled message completes every request on the list.  So it completes no
request but the one it answers exactly where no other is pending when the
handler goes through the list, and a request that waits for a reply is
completed by it exactly where the reply reports success.
-/

namespace UIoT
namespace Shadow

open Machine (run Along)

/-! ## Settling in order -/

namespace Books

/-- The requests on the list were made one after the other. -/
def Ordered (b : Books) : Prop :=
  b.requestList.Pairwise (fun first second => first.number < second.number) ∧
    ∀ request ∈ b.requestList, request.number < b.nextNumber

theorem Ordered.make {b : Books} (ordered : b.Ordered) {request : Request}
    (number : request.number = b.nextNumber) (queued : Bool) :
    (b.make request queued).Ordered := by
  obtain ⟨pairwise, below⟩ := ordered
  cases queued with
  | false => exact ⟨pairwise, fun other mem => Nat.lt_succ_of_lt (below other mem)⟩
  | true =>
      constructor
      · refine List.pairwise_append.mpr ⟨pairwise, List.pairwise_singleton .., ?_⟩
        intro first mem second same
        obtain rfl := List.mem_singleton.mp same
        rw [number]
        exact below first mem
      · intro other mem
        rcases List.mem_append.mp mem with before | same
        · exact Nat.lt_succ_of_lt (below other before)
        · obtain rfl := List.mem_singleton.mp same
          exact number ▸ Nat.lt_succ_self _

/-- The number tells the requests on an ordered list apart. -/
theorem Ordered.eq_of_number {b : Books} (ordered : b.Ordered)
    {first second : Request} (first_mem : first ∈ b.requestList)
    (second_mem : second ∈ b.requestList)
    (same : first.number = second.number) : first = second := by
  have distinct : (b.requestList.map Request.number).Nodup :=
    List.pairwise_map.mpr (ordered.1.imp Nat.ne_of_lt)
  exact List.inj_on_of_nodup_map distinct first_mem second_mem same

theorem Ordered.nodup {b : Books} (ordered : b.Ordered) :
    b.requestList.Nodup := by
  refine ordered.1.imp ?_
  rintro first second less rfl
  exact Nat.lt_irrefl _ less

/-- Taking a request off an ordered list leaves those with other numbers. -/
theorem eraseP_number {requests : List Request}
    (pairwise : requests.Pairwise fun first second =>
      first.number < second.number) (number : Nat) :
    requests.eraseP (fun other => other.number = number) =
      requests.filter fun other => other.number ≠ number := by
  induction requests with
  | nil => rfl
  | cons request requests inductionHypothesis =>
      obtain ⟨first, rest⟩ := List.pairwise_cons.mp pairwise
      by_cases same : request.number = number
      · rw [List.eraseP_cons_of_pos (by simpa using same),
          List.filter_cons_of_neg (by simpa using same)]
        refine (List.filter_eq_self.mpr fun other mem => ?_).symm
        have later := first other mem
        rw [same] at later
        simpa using Nat.ne_of_gt later
      · rw [List.eraseP_cons_of_neg (by simpa using same),
          List.filter_cons_of_pos (by simpa using same),
          inductionHypothesis rest]

theorem foldl_settle (outcome : Request → Option RequestAck)
    (requests : List Request) (b : Books)
    (pairwise : b.requestList.Pairwise fun first second =>
      first.number < second.number) :
    (requests.foldl (settle outcome) b).requestList =
        b.requestList.filter (fun other => requests.all fun request =>
          (outcome request).isNone || other.number ≠ request.number) ∧
      (requests.foldl (settle outcome) b).completed =
        b.completed ++ requests.filterMap fun request =>
          (outcome request).map fun ack => (request, ack) := by
  induction requests generalizing b with
  | nil => simp
  | cons request requests inductionHypothesis =>
      rw [List.foldl_cons, settle]
      cases settled : outcome request with
      | none =>
          obtain ⟨list, completed⟩ := inductionHypothesis b pairwise
          rw [list, completed]
          simp [settled]
      | some ack =>
          have shorter := pairwise.sublist (List.eraseP_sublist
            (p := fun other : Request => decide (other.number = request.number)))
          obtain ⟨list, completed⟩ :=
            inductionHypothesis (b.finish request ack) shorter
          dsimp only
          rw [list, completed]
          unfold finish
          dsimp only
          rw [eraseP_number pairwise, List.filter_filter]
          simp [settled, Bool.and_comm]

/-- Settling takes off exactly the requests that have an outcome. -/
theorem Ordered.settleAll_eq {b : Books} (ordered : b.Ordered)
    (outcome : Request → Option RequestAck) :
    (b.settleAll outcome).requestList =
        b.requestList.filter (fun request => (outcome request).isNone) ∧
      (b.settleAll outcome).completed =
        b.completed ++ b.requestList.reverse.filterMap fun request =>
          (outcome request).map fun ack => (request, ack) := by
  obtain ⟨list, completed⟩ :=
    foldl_settle outcome b.requestList.reverse b ordered.1
  refine ⟨list.trans (List.filter_congr fun request mem => ?_), completed⟩
  rw [Bool.eq_iff_iff, List.all_eq_true]
  constructor
  · intro all
    simpa using all request (List.mem_reverse.mpr mem)
  · intro unsettled other other_mem
    rw [Bool.or_eq_true, decide_eq_true_eq]
    by_cases same : request.number = other.number
    · have other_mem := List.mem_reverse.mp other_mem
      obtain rfl := ordered.eq_of_number mem other_mem same
      exact .inl unsettled
    · exact .inr same

theorem Ordered.settleAll {b : Books} (ordered : b.Ordered)
    (outcome : Request → Option RequestAck) : (b.settleAll outcome).Ordered := by
  have number : (b.settleAll outcome).nextNumber = b.nextNumber :=
    (settleAll_members outcome b).2.2
  obtain ⟨list, -⟩ := ordered.settleAll_eq outcome
  unfold Ordered
  rw [list, number]
  exact ⟨ordered.1.sublist List.filter_sublist,
    fun request mem => ordered.2 request (List.mem_of_mem_filter mem)⟩

end Books

/-- In every run the requests on the list were made one after the other. -/
theorem step_ordered (s : UIoTShadow) (label : Label)
    (ordered : s.books.Ordered) : (s.step label).books.Ordered :=
  step_preserves (fun _ _ _ ordered => ordered)
    (fun _ _ _ number ordered => ordered.make number _)
    (fun _ _ ordered => ordered.settleAll _) s label ordered

/-! ## Completions -/

/-- The requests a step completes, with the outcomes it gives them. -/
def completions (s : UIoTShadow) (label : Label) : List (Request × RequestAck) :=
  (s.step label).completed.drop s.completed.length

/-- The message is a reply. -/
def IsReply (message : Message) : Prop :=
  parseShadowMethodType (received message.payload) = some methodReply

/-- The outcome a reply reports. -/
def replyAck (message : Message) : Option RequestAck :=
  (parseShadowPayloadRetcodeType (received message.payload)).map fun retCode =>
    if retCode = 0 then .accepted else .rejected

/-- The step may give the request this outcome. -/
def Due (s : UIoTShadow) (request : Request) (ack : RequestAck) : Label → Prop
  | .downstream answers message _ =>
      some request.number = answers ∧
        (IsReply message → some ack = replyAck message)
  | .getReply answers _ _ => some request.number = answers
  | .expire _ =>
      request.timer.hasExpired s.mqtt.clock = true ∧ ack = .timeout
  | _ => False

/-- The step completes a request once at most and gives it an outcome that is
due, and every other request stays on the list. -/
def Correlated (s : UIoTShadow) (label : Label) : Prop :=
  ((completions s label).map Prod.fst).Nodup ∧
    (∀ completion ∈ completions s label,
      Due s completion.1 completion.2 label) ∧
    ∀ request ∈ s.requestList,
      request ∉ (completions s label).map Prod.fst →
        request ∈ (s.step label).requestList

/-- A reply to a request on the list completes it. -/
def Settled (s : UIoTShadow) : Label → Prop
  | .downstream answers message env =>
      IsReply message → ∀ ack, replyAck message = some ack →
        ∀ request ∈ s.requestList, some request.number = answers →
          (request, ack) ∈ completions s (.downstream answers message env)
  | _ => True

/-! ## When messages keep to their requests -/

/-- The requests pending once the properties of a message are handled: the
request that answers is among them where it is queued. -/
def pending (s : UIoTShadow) (desired : Option (List UInt8))
    (env : MessageEnv) : List Request :=
  s.requestList ++
    if desired.any (·.length > 2) && Answers s env && Queues s env.reply then
      [replyRequest s]
    else []

/-- Nothing but the answered request is pending when a message makes the handler
go through the list. -/
def Alone (s : UIoTShadow) : Label → Prop
  | .downstream answers message env =>
      ∀ method, settlingMethod message = some method →
        env.traverseIteratorAllocated = true →
          ∀ request ∈ pending s
            (controlDesired method (received message.payload)) env,
            some request.number = answers
  | .getReply answers message env =>
      settlesGets message = true → env.traverseIteratorAllocated = true →
        ∀ request ∈ pending s
          (parseShadowStateDesiredType (received message.payload)) env,
          some request.number = answers
  | _ => True

/-- A reply to a request on the list reports success and has a version, and the
iterator can be allocated. -/
def Succeeds (s : UIoTShadow) : Label → Prop
  | .downstream answers message env =>
      IsReply message → (replyAck message).isSome →
        (∃ request ∈ s.requestList, some request.number = answers) →
          settlingMethod message = some methodReply ∧
            env.traverseIteratorAllocated = true
  | _ => True

/-! ## Steps -/

theorem booksBehindDelta_eq (s : UIoTShadow) (version : UInt32)
    (cloudRcvBuf : List UInt8) (desired : Option (List UInt8))
    (env : MessageEnv) :
    let b := booksBehindDelta { s with version, cloudRcvBuf } desired env
    b.requestList = pending s desired env ∧ b.completed = s.completed := by
  have answers : Answers { s with version, cloudRcvBuf } env = Answers s env :=
    rfl
  unfold booksBehindDelta pending
  dsimp only
  rw [answers]
  split
  · rename_i asks
    rw [asks, Bool.true_and]
    refine ⟨?_, rfl⟩
    have queues : Queues { s with version, cloudRcvBuf } env.reply =
      Queues s env.reply := rfl
    unfold Books.make
    dsimp only
    rw [queues]
    cases Queues s env.reply with
    | false => exact (List.append_nil _).symm
    | true => rfl
  · rename_i silent
    rw [Bool.not_eq_true] at silent
    rw [silent]
    exact ⟨(List.append_nil _).symm, rfl⟩

theorem booksBehindDelta_ordered {s : UIoTShadow}
    (ordered : s.books.Ordered) (version : UInt32) (cloudRcvBuf : List UInt8)
    (desired : Option (List UInt8)) (env : MessageEnv) :
    (booksBehindDelta { s with version, cloudRcvBuf } desired env).Ordered := by
  unfold booksBehindDelta
  split
  · exact Books.Ordered.make ordered rfl _
  · exact ordered

/-- A step behind which nothing is completed and all requests stay is in
order. -/
theorem correlated_of_nothing {s : UIoTShadow} {label : Label}
    (nothing : (s.step label).completed = s.completed)
    (stay : s.requestList ⊆ (s.step label).requestList) :
    completions s label = [] ∧ Correlated s label := by
  have none : completions s label = [] := by
    unfold completions
    rw [nothing, List.drop_length]
  unfold Correlated
  rw [none]
  exact ⟨rfl, List.nodup_nil, fun _ mem => absurd mem List.not_mem_nil,
    fun request mem _ => stay mem⟩

/-- A message that is only stored completes nothing. -/
theorem correlated_of_stored {s : UIoTShadow} (label : Label)
    {version : UInt32} {cloudRcvBuf : List UInt8}
    (stored : (s.step label).books = { s.books with version, cloudRcvBuf }) :
    completions s label = [] ∧ Correlated s label := by
  have list : (s.step label).requestList = s.requestList :=
    congrArg Books.requestList stored
  apply correlated_of_nothing
  · exact congrArg Books.completed stored
  · exact list ▸ List.Subset.refl _

/-- A step that completes every pending request is in order exactly where the
outcome is due to each of them. -/
theorem correlated_of_every {s : UIoTShadow} {label : Label}
    {desired : Option (List UInt8)} {env : MessageEnv} {ack : RequestAck}
    (distinct : (pending s desired env).Nodup)
    (completed : (s.step label).completed = s.completed ++
      (pending s desired env).reverse.map fun request => (request, ack)) :
    completions s label =
        (pending s desired env).reverse.map (fun request => (request, ack)) ∧
      (Correlated s label ↔
        ∀ request ∈ pending s desired env, Due s request ack label) := by
  have all : completions s label =
      (pending s desired env).reverse.map fun request => (request, ack) := by
    unfold completions
    rw [completed, List.drop_left]
  have requests : (completions s label).map Prod.fst =
      (pending s desired env).reverse := by
    rw [all, List.map_map]
    exact List.map_id _
  refine ⟨all, ?_⟩
  unfold Correlated
  rw [requests]
  constructor
  · rintro ⟨-, due, -⟩ request mem
    refine due (request, ack) ?_
    rw [all]
    exact List.mem_map_of_mem (List.mem_reverse.mpr mem)
  · intro due
    refine ⟨List.nodup_reverse.mpr distinct, fun completion mem => ?_,
      fun request mem missing => ?_⟩
    · rw [all] at mem
      obtain ⟨request, listed, rfl⟩ := List.mem_map.mp mem
      exact due request (List.mem_reverse.mp listed)
    · exact absurd (List.mem_reverse.mpr (List.mem_append_left _ mem)) missing

/-- What a message completes that makes the handler go through the list. -/
theorem settleEvery_outcome {s : UIoTShadow} (ordered : s.books.Ordered)
    (label : Label) {version : UInt32} {cloudRcvBuf : List UInt8}
    {desired : Option (List UInt8)} {env : MessageEnv} {ack : RequestAck}
    (books : (s.step label).books =
      (booksBehindDelta { s with version, cloudRcvBuf } desired env).settleEvery
        env.traverseIteratorAllocated ack) :
    if env.traverseIteratorAllocated = true then
      completions s label =
          (pending s desired env).reverse.map (fun request => (request, ack)) ∧
        (Correlated s label ↔
          ∀ request ∈ pending s desired env, Due s request ack label)
    else completions s label = [] ∧ Correlated s label := by
  obtain ⟨list, before⟩ := booksBehindDelta_eq s version cloudRcvBuf desired env
  have kept := booksBehindDelta_ordered ordered version cloudRcvBuf desired env
  have completed := congrArg Books.completed books
  have after := congrArg Books.requestList books
  cases allocated : env.traverseIteratorAllocated with
  | false =>
      rw [if_neg (by decide)]
      rw [allocated] at completed after
      refine correlated_of_nothing (completed.trans before) ?_
      have after : (s.step label).requestList = pending s desired env :=
        after.trans list
      rw [after]
      exact List.subset_append_left ..
  | true =>
      rw [if_pos rfl]
      rw [allocated] at completed
      apply correlated_of_every
      · exact list ▸ kept.nodup
      · have settled := (kept.settleAll_eq fun _ => some ack).2
        refine completed.trans (settled.trans ?_)
        rw [list, before]
        simp

/-- The method of a settling message is the one it names. -/
theorem settlingMethod_eq_some {message : Message} {method : List UInt8}
    (settling : settlingMethod message = some method) :
    parseShadowMethodType (received message.payload) = some method ∧
      Settles method (received message.payload) = true := by
  unfold settlingMethod at settling
  dsimp only at settling
  split at settling
  · cases settling
  · obtain ⟨named, settles⟩ := Option.filter_eq_some_iff.mp settling
    exact ⟨named, (Bool.and_eq_true_iff.mp settles).2⟩

/-- The outcome of a settling reply is the one it reports. -/
theorem ackOf_reply {message : Message}
    (success : Settles methodReply (received message.payload) = true) :
    some (ackOf (received message.payload) methodReply) = replyAck message := by
  unfold Settles at success
  have notControl : methodReply ≠ methodControl := by decide
  have notGetReply : methodReply ≠ methodGetReply := by decide
  have retCode : parseShadowPayloadRetcodeType (received message.payload) =
      some 0 := by simpa [notControl] using success
  unfold ackOf replyAck
  rw [if_neg notGetReply, if_pos (.inl rfl), retCode]
  rfl

/-- A downstream message keeps to the request it answers exactly where no other
is pending. -/
theorem downstream_correlated_iff {s : UIoTShadow}
    (ordered : s.books.Ordered) (answers : Option Nat) (message : Message)
    (env : MessageEnv) :
    Correlated s (.downstream answers message env) ↔
      Alone s (.downstream answers message env) := by
  obtain ⟨version, cloudRcvBuf, books⟩ :=
    topicRequestResultHandler_books s message env
  cases settling : settlingMethod message with
  | none =>
      rw [settling] at books
      have kept := (correlated_of_stored (.downstream answers message env)
        books).2
      exact ⟨fun _ _ same => (nomatch settling.symm.trans same), fun _ => kept⟩
  | some method =>
      rw [settling] at books
      have outcome := settleEvery_outcome ordered
        (.downstream answers message env) books
      obtain ⟨named, settles⟩ := settlingMethod_eq_some settling
      have reported : IsReply message →
          some (ackOf (received message.payload) method) = replyAck message := by
        intro reply
        obtain rfl := Option.some.inj (named.symm.trans reply)
        exact ackOf_reply settles
      cases allocated : env.traverseIteratorAllocated with
      | false =>
          rw [allocated, if_neg (by decide)] at outcome
          exact ⟨fun _ _ _ iterates => (nomatch allocated.symm.trans iterates),
            fun _ => outcome.2⟩
      | true =>
          rw [allocated, if_pos rfl] at outcome
          rw [outcome.2]
          constructor
          · intro due other same _ request mem
            obtain rfl := Option.some.inj (settling.symm.trans same)
            exact (due request mem).1
          · intro alone request mem
            exact ⟨alone method settling allocated request mem, reported⟩

/-- A get-reply keeps to the request it answers exactly where no other is
pending. -/
theorem getReply_correlated_iff {s : UIoTShadow} (ordered : s.books.Ordered)
    (answers : Option Nat) (message : Message) (env : MessageEnv) :
    Correlated s (.getReply answers message env) ↔
      Alone s (.getReply answers message env) := by
  obtain ⟨version, cloudRcvBuf, books⟩ := topicSyncHandler_books s message env
  cases settling : settlesGets message with
  | false =>
      rw [settling, if_neg (by decide)] at books
      have kept := (correlated_of_stored (.getReply answers message env) books).2
      exact ⟨fun _ settles => (nomatch settling.symm.trans settles),
        fun _ => kept⟩
  | true =>
      rw [settling, if_pos rfl] at books
      have outcome := settleEvery_outcome ordered
        (.getReply answers message env) books
      cases allocated : env.traverseIteratorAllocated with
      | false =>
          rw [allocated, if_neg (by decide)] at outcome
          exact ⟨fun _ _ iterates => (nomatch allocated.symm.trans iterates),
            fun _ => outcome.2⟩
      | true =>
          rw [allocated, if_pos rfl] at outcome
          rw [outcome.2]
          exact ⟨fun due _ _ => due, fun alone => alone settling allocated⟩

theorem map_fst_filterMap (outcome : Request → Option RequestAck)
    (requests : List Request) :
    (requests.filterMap fun request =>
      (outcome request).map fun ack => (request, ack)).map Prod.fst =
      requests.filter fun request => (outcome request).isSome := by
  induction requests with
  | nil => rfl
  | cons request requests inductionHypothesis =>
      cases settled : outcome request with
      | none => simp [settled, inductionHypothesis]
      | some ack => simp [settled, inductionHypothesis]

/-- The sweep completes the requests whose time has run out, and no others. -/
theorem expire_correlated {s : UIoTShadow} (ordered : s.books.Ordered)
    (iteratorAllocated : Bool) :
    Correlated s (.expire iteratorAllocated) := by
  have books := handleExpiredRequest_books s iteratorAllocated
  cases iteratorAllocated with
  | false =>
      exact (correlated_of_stored (.expire false) books).2
  | true =>
      rw [if_pos rfl] at books
      let outcome : Request → Option RequestAck := fun request =>
        if request.timer.hasExpired s.mqtt.clock then some .timeout else none
      obtain ⟨list, completed⟩ := ordered.settleAll_eq outcome
      have after : (s.step (.expire true)).requestList =
          s.requestList.filter fun request => (outcome request).isNone :=
        (congrArg Books.requestList books).trans list
      have all : completions s (.expire true) =
          s.requestList.reverse.filterMap fun request =>
            (outcome request).map fun ack => (request, ack) := by
        have grown : (s.step (.expire true)).completed = s.completed ++
            s.requestList.reverse.filterMap fun request =>
              (outcome request).map fun ack => (request, ack) :=
          (congrArg Books.completed books).trans completed
        unfold completions
        rw [grown, List.drop_left]
      have requests : (completions s (.expire true)).map Prod.fst =
          s.requestList.reverse.filter fun request =>
            (outcome request).isSome := by
        rw [all]
        exact map_fst_filterMap outcome _
      refine ⟨?_, fun completion mem => ?_, fun request mem missing => ?_⟩
      · rw [requests]
        exact (List.nodup_reverse.mpr ordered.nodup).filter _
      · rw [all] at mem
        obtain ⟨request, -, settled⟩ := List.mem_filterMap.mp mem
        obtain ⟨ack, has, rfl⟩ := Option.map_eq_some_iff.mp settled
        dsimp only [outcome] at has
        by_cases expired : request.timer.hasExpired s.mqtt.clock
        · rw [if_pos expired] at has
          exact ⟨expired, (Option.some.inj has).symm⟩
        · rw [if_neg expired] at has
          cases has
      · rw [after]
        rw [requests] at missing
        refine List.mem_filter.mpr ⟨mem, ?_⟩
        rw [Option.isNone_iff_eq_none, ← Option.not_isSome_iff_eq_none]
        exact fun settled => missing
          (List.mem_filter.mpr ⟨List.mem_reverse.mpr mem, settled⟩)

/-- Making a request completes none. -/
theorem request_correlated (s : UIoTShadow) (pJsonDoc : Option (List UInt8))
    (sizeOfBuffer : Nat) (params : Option RequestParams) (env : RequestEnv) :
    Correlated s (.request pJsonDoc sizeOfBuffer params env) := by
  cases params with
  | none => exact (correlated_of_nothing rfl (List.Subset.refl _)).2
  | some params =>
      have books := uiotShadowMakeRequest_books s pJsonDoc sizeOfBuffer params
        env
      apply And.right
      apply correlated_of_nothing
      · exact congrArg Books.completed books
      · have list := congrArg Books.requestList books
        intro request mem
        have queued : (s.step (.request pJsonDoc sizeOfBuffer (some params)
            env)).requestList = _ := list
        rw [queued]
        unfold Books.make
        dsimp only
        split
        · exact List.mem_append_left _ mem
        · exact mem

/-- A step of an ordered client is in order exactly where no request but the
answered one is pending. -/
theorem correlated_iff {s : UIoTShadow} (ordered : s.books.Ordered)
    (label : Label) : Correlated s label ↔ Alone s label := by
  cases label with
  | request pJsonDoc sizeOfBuffer params env =>
      exact ⟨fun _ => trivial, fun _ => request_correlated ..⟩
  | downstream answers message env =>
      exact downstream_correlated_iff ordered answers message env
  | getReply answers message env =>
      exact getReply_correlated_iff ordered answers message env
  | expire iteratorAllocated =>
      exact ⟨fun _ => trivial, fun _ => expire_correlated ordered _⟩
  | properties propertyList =>
      exact ⟨fun _ => trivial,
        fun _ => (correlated_of_nothing rfl (List.Subset.refl _)).2⟩
  | elsewhere mqtt =>
      exact ⟨fun _ => trivial,
        fun _ => (correlated_of_nothing rfl (List.Subset.refl _)).2⟩

/-- A reply to a request on the list completes it exactly where it reports
success and has a version. -/
theorem settled_iff {s : UIoTShadow} (ordered : s.books.Ordered)
    (label : Label) : Settled s label ↔ Succeeds s label := by
  cases label with
  | downstream answers message env =>
      obtain ⟨version, cloudRcvBuf, books⟩ :=
        topicRequestResultHandler_books s message env
      constructor
      · intro settled reply acked ⟨request, mem, same⟩
        obtain ⟨ack, reports⟩ := Option.isSome_iff_exists.mp acked
        have done := settled reply ack reports request mem same
        cases settling : settlingMethod message with
        | none =>
            rw [settling] at books
            have nothing : completions s (.downstream answers message env) =
                [] := (correlated_of_stored (.downstream _ _ _) books).1
            rw [nothing] at done
            exact absurd done List.not_mem_nil
        | some method =>
            rw [settling] at books
            have outcome := settleEvery_outcome ordered
              (.downstream answers message env) books
            obtain ⟨named, -⟩ := settlingMethod_eq_some settling
            obtain rfl := Option.some.inj (named.symm.trans reply)
            cases allocated : env.traverseIteratorAllocated with
            | false =>
                rw [allocated, if_neg (by decide)] at outcome
                rw [outcome.1] at done
                exact absurd done List.not_mem_nil
            | true => exact ⟨rfl, rfl⟩
      · intro succeeds reply ack reports request mem same
        obtain ⟨settling, allocated⟩ := succeeds reply
          (Option.isSome_iff_exists.mpr ⟨ack, reports⟩) ⟨request, mem, same⟩
        rw [settling] at books
        have outcome := settleEvery_outcome ordered
          (.downstream answers message env) books
        rw [allocated, if_pos rfl] at outcome
        rw [outcome.1]
        have acked : ackOf (received message.payload) methodReply = ack :=
          Option.some.inj
            ((ackOf_reply (settlingMethod_eq_some settling).2).trans reports)
        refine List.mem_map.mpr ⟨request, ?_, by rw [acked]⟩
        exact List.mem_reverse.mpr (List.mem_append_left _ mem)
  | _ => exact ⟨fun _ => trivial, fun _ => trivial⟩

/-! ## Runs -/

/-- In every run the steps complete no request they should not exactly where,
whenever a message makes the handler go through the list, nothing but the
request it answers is pending; and they also complete each request that a reply
answers exactly where, besides, the replies report success. -/
theorem run_correlated_iff (mqtt : Mqtt.Client) (productSn deviceSn : CString)
    (labels : List Label) :
    let start := uiotShadowInit mqtt productSn deviceSn
    (Along UIoTShadow.step Correlated start labels ↔
      Along UIoTShadow.step Alone start labels) ∧
    (Along UIoTShadow.step (fun s label => Correlated s label ∧ Settled s label)
        start labels ↔
      Along UIoTShadow.step (fun s label => Alone s label ∧ Succeeds s label)
        start labels) := by
  intro start
  have initially : start.books.Ordered :=
    ⟨List.Pairwise.nil, fun _ mem => absurd mem List.not_mem_nil⟩
  constructor
  · exact Along.iff_of_invariant (fun s => s.books.Ordered)
      (fun s label ordered => correlated_iff ordered label)
      (fun s label ordered _ => step_ordered s label ordered) initially labels
  · exact Along.iff_of_invariant (fun s => s.books.Ordered)
      (fun s label ordered => and_congr (correlated_iff ordered label)
        (settled_iff ordered label))
      (fun s label ordered _ => step_ordered s label ordered) initially labels

/-! ## Samples -/

/-- The reply `{"Method":"reply","Payload":{"RetCode":…},"Version":1}`. -/
def sampleReply (retCode : Nat) : Message where
  payload := ascii "\x7b\"Method\":\"reply\",\"Payload\":\x7b\"RetCode\":" ++
    decimal retCode ++ ascii "\x7d,\"Version\":1\x7d"
  topicLen := 24

/-- Surroundings in which nothing fails. -/
def sampleMessageEnv : MessageEnv where
  paramsAllocated := true
  propertyIteratorAllocated := true
  valueCopied := fun _ => true
  traverseIteratorAllocated := true
  onProperty := fun handler _ => ⟨[], handler.property.data⟩
  reply := sampleEnv

/-- A reply reaches the client that answers the request of the number. -/
def sampleDownstream (number retCode : Nat) : Label :=
  .downstream (some number) (sampleReply retCode) sampleMessageEnv

/-- The sample request with its number. -/
def sampleQueued (number : Nat) : Request :=
  requestOf { sampleShadow true with nextNumber := number } sampleParams

/-- With two requests pending, a reply to the first completes the second, too;
and a reply that reports a failure does not complete its request. -/
theorem run_correlated_broken :
    ¬Along UIoTShadow.step Correlated (sampleShadow true)
      [sampleRequest, sampleRequest, sampleDownstream 0 0] ∧
    ¬Along UIoTShadow.step (fun s label => Correlated s label ∧ Settled s label)
      (sampleShadow true) [sampleRequest, sampleDownstream 0 1] := by
  constructor
  · intro along
    have due := along.2.2.1.2.1 (sampleQueued 1, .accepted) (by decide +kernel)
    exact absurd due.1 (by decide +kernel)
  · intro along
    have settled := along.2.1.2 (by unfold IsReply; decide +kernel) .rejected
      (by decide +kernel) (sampleQueued 0) (by decide +kernel)
      (by decide +kernel)
    exact absurd settled (by decide +kernel)

end Shadow
end UIoT
