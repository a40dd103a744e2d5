import UIoT.Shadow.RequestNodes

/-!
# The life of a request

A request is on `request_list` from the step that queues it to the one that
takes it off and tells its callback, once: a message that accepts or rejects
it, or a sweep when its seconds have passed.  The others stay as they are, and
there are never more than ten.
-/

namespace UIoT
namespace Shadow

open Machine (run)

/-! ## Steps -/

/-- The request that answers a message, where it is queued, with the seconds it
is given. -/
def answerQueued (s : UIoTShadow) (desired : Option (List UInt8))
    (env : MessageEnv) : Option (Request × Nat) :=
  if desired.any (·.length > 2) && Answers s env && Queues s env.reply then
    some (replyRequest s, (replyParams s.cloudSendMethod).timeoutSec.toNat)
  else none

/-- The request a step puts on the list, with its `timeout_sec`. -/
def queuedBy (s : UIoTShadow) : Label → Option (Request × Nat)
  | .request _ _ (some params) env =>
      if Queues s env then some (requestOf s params, params.timeoutSec.toNat)
      else none
  | .downstream _ message env =>
      (settlingMethod message).bind fun method =>
        answerQueued s (controlDesired method (received message.payload)) env
  | .getReply _ message env =>
      if settlesGets message then
        answerQueued s (parseShadowStateDesiredType (received message.payload))
          env
      else none
  | _ => none

/-- The requests on the list during a step, in their order. -/
def entries (s : UIoTShadow) (label : Label) : List Request :=
  s.requestList ++ ((queuedBy s label).map Prod.fst).toList

/-- The calls of the callbacks of requests a step makes. -/
def told (s : UIoTShadow) (label : Label) : List (Request × RequestAck) :=
  (s.step label).books.requestCalls.drop s.books.requestCalls.length

/-- The outcome a step may give to a request at the end of a run: a handled
message accepts or rejects it, and a sweep lets it time out if it was queued,
earlier in the run, at least its `timeout_sec` ago. -/
def Permitted (start : UIoTShadow) (front : List Label) (request : Request)
    (ack : RequestAck) : Label → Prop
  | .downstream .. | .getReply .. => ack = .accepted ∨ ack = .rejected
  | .expire _ =>
      ack = .timeout ∧ ∃ first label second timeoutSec,
        front = first ++ label :: second ∧
          queuedBy (run UIoTShadow.step start first) label =
            some (request, timeoutSec) ∧
          (run UIoTShadow.step start first).mqtt.clock + timeoutSec * 1000000 ≤
            (run UIoTShadow.step start front).mqtt.clock
  | _ => False

/-- What the step behind a run does to the list of requests. -/
structure Lifecycle (start : UIoTShadow) (front : List Label)
    (label : Label) : Prop where
  /-- No request is on the list twice. -/
  distinct : (entries (run UIoTShadow.step start front) label).Nodup
  /-- The requests that stay keep their places, and no other gets on the
  list. -/
  stay :
    let s := run UIoTShadow.step start front
    (s.step label).requestList =
      (entries s label).filter fun request =>
        request ∈ (s.step label).requestList
  /-- A request that leaves has a permitted outcome, of which its callback is
  told once if it has one. -/
  leave :
    let s := run UIoTShadow.step start front
    ∀ request ∈ entries s label, request ∉ (s.step label).requestList →
      ∃ ack, Permitted start front request ack label ∧
        (told s label).filter (fun call => call.1 = request) =
          if request.callback.isSome then [(request, ack)] else []
  /-- No callback is called but of requests that were on the list and leave
  it. -/
  calls :
    let s := run UIoTShadow.step start front
    ∀ call ∈ told s label,
      call.1 ∈ entries s label ∧ call.1 ∉ (s.step label).requestList
  /-- The list does not grow past its limit. -/
  bounded :
    (entries (run UIoTShadow.step start front) label).length ≤
      maxAppendingRequestAtAnyGivenTime

/-! ## Outcomes -/

namespace Books

theorem foldl_settle_calls (outcome : Request → Option RequestAck)
    (requests : List Request) (b : Books) :
    (requests.foldl (settle outcome) b).requestCalls =
      b.requestCalls ++
        (requests.filterMap fun request =>
          (outcome request).map fun ack => (request, ack)).filter
            fun call => call.1.callback.isSome := by
  induction requests generalizing b with
  | nil => simp
  | cons request requests inductionHypothesis =>
      rw [List.foldl_cons, inductionHypothesis, settle]
      cases settled : outcome request with
      | none => simp [settled]
      | some ack =>
          cases called : request.callback with
          | none => simp [settled, finish, called]
          | some callback => simp [settled, finish, called]

end Books

/-- The step gives the requests on the list these outcomes. -/
structure Follows (s : UIoTShadow) (label : Label)
    (outcome : Request → Option RequestAck) : Prop where
  list : (s.step label).requestList =
    (entries s label).filter fun request => (outcome request).isNone
  told : told s label =
    ((entries s label).reverse.filterMap fun request =>
      (outcome request).map fun ack => (request, ack)).filter
        fun call => call.1.callback.isSome

/-- The requests that leave are those with an outcome. -/
theorem Follows.leaves_iff {s : UIoTShadow} {label : Label}
    {outcome : Request → Option RequestAck} (follows : Follows s label outcome)
    {request : Request} (mem : request ∈ entries s label) :
    request ∉ (s.step label).requestList ↔
      ∃ ack, outcome request = some ack := by
  rw [follows.list, List.mem_filter, ← Option.isSome_iff_exists,
    ← Option.ne_none_iff_isSome]
  simp [mem]

/-- A step that settles the books of the requests on the list. -/
theorem follows_of_settleAll {s : UIoTShadow} {label : Label} {b : Books}
    {outcome : Request → Option RequestAck} (ordered : b.Ordered)
    (listed : b.requestList = entries s label)
    (before : b.requestCalls = s.books.requestCalls)
    (after : (s.step label).books = b.settleAll outcome) :
    Follows s label outcome := by
  constructor
  · have list := (congrArg Books.requestList after).trans
      (ordered.settleAll_eq outcome).1
    rw [listed] at list
    exact list
  · have calls := (congrArg Books.requestCalls after).trans
      (Books.foldl_settle_calls outcome b.requestList.reverse b)
    unfold told
    rw [calls, before, listed, List.drop_left]

/-- A step that at most queues a request gives no outcome. -/
theorem follows_of_queued {s : UIoTShadow} {label : Label}
    (list : (s.step label).requestList = entries s label)
    (silent : (s.step label).books.requestCalls = s.books.requestCalls) :
    Follows s label fun _ => none := by
  constructor
  · rw [list]
    simp
  · unfold told
    rw [silent, List.drop_length]
    simp

theorem entries_of_none {s : UIoTShadow} {label : Label}
    (queued : queuedBy s label = none) : entries s label = s.requestList := by
  rw [entries, queued]
  exact List.append_nil _

/-- A message that is only stored queues nothing and gives no outcome. -/
theorem follows_of_stored {s : UIoTShadow} {label : Label} {version : UInt32}
    {cloudRcvBuf : List UInt8} (queued : queuedBy s label = none)
    (stored : (s.step label).books = { s.books with version, cloudRcvBuf }) :
    Follows s label fun _ => none := by
  apply follows_of_queued
  · exact (congrArg Books.requestList stored).trans
      (entries_of_none queued).symm
  · have calls := congrArg Books.requestCalls stored
    exact calls

theorem pending_eq (s : UIoTShadow) (desired : Option (List UInt8))
    (env : MessageEnv) :
    pending s desired env =
      s.requestList ++ ((answerQueued s desired env).map Prod.fst).toList := by
  unfold pending answerQueued
  split <;> rfl

/-- A message that makes the handler go through the requests gives them all the
same outcome, where the iterator can be allocated. -/
theorem follows_of_every {s : UIoTShadow} (ordered : s.books.Ordered)
    {label : Label} {version : UInt32} {cloudRcvBuf : List UInt8}
    {desired : Option (List UInt8)} {env : MessageEnv} {ack : RequestAck}
    (queued : queuedBy s label = answerQueued s desired env)
    (books : (s.step label).books =
      (booksBehindDelta { s with version, cloudRcvBuf } desired env).settleEvery
        env.traverseIteratorAllocated ack) :
    Follows s label fun _ =>
      if env.traverseIteratorAllocated then some ack else none := by
  obtain ⟨list, -⟩ := booksBehindDelta_eq s version cloudRcvBuf desired env
  have kept := booksBehindDelta_ordered ordered version cloudRcvBuf desired env
  have listed : entries s label = pending s desired env := by
    rw [pending_eq, entries, queued]
  have calls :
      (booksBehindDelta { s with version, cloudRcvBuf } desired
        env).requestCalls = s.books.requestCalls := by
    unfold booksBehindDelta
    split <;> rfl
  cases allocated : env.traverseIteratorAllocated with
  | false =>
      rw [allocated] at books
      apply follows_of_queued
      · exact (congrArg Books.requestList books).trans (list.trans listed.symm)
      · exact (congrArg Books.requestCalls books).trans calls
  | true =>
      rw [allocated] at books
      exact follows_of_settleAll kept (list.trans listed.symm) calls books

/-- The outcomes a settling message gives accept or reject. -/
theorem ackOf_settling {method cloudRcvBuf : List UInt8}
    (settles : Settles method cloudRcvBuf = true) :
    ackOf cloudRcvBuf method = .accepted ∨
      ackOf cloudRcvBuf method = .rejected := by
  unfold ackOf
  split
  · exact .inl rfl
  · have answers : method = methodReply ∨ method = methodControl := by
      unfold Settles at settles
      simp only [Bool.or_eq_true, Bool.and_eq_true, decide_eq_true_eq]
        at settles
      exact settles.imp_left And.left
    rw [if_pos answers]
    split
    · split
      · exact .inl rfl
      · exact .inr rfl
    · exact .inr rfl

/-- The outcomes of a step behind a run, where each is permitted if the requests
that time out were queued long enough ago. -/
theorem step_follows {s : UIoTShadow} (ordered : s.books.Ordered)
    (label : Label) :
    ∃ outcome, Follows s label outcome ∧
      ∀ request ack, outcome request = some ack →
        match label with
        | .downstream .. | .getReply .. => ack = .accepted ∨ ack = .rejected
        | .expire _ =>
            ack = .timeout ∧ request.timer.hasExpired s.mqtt.clock = true
        | _ => False := by
  cases label with
  | request pJsonDoc sizeOfBuffer params env =>
      refine ⟨fun _ => none, ?_, fun _ _ never => nomatch never⟩
      cases params with
      | none => exact follows_of_queued (entries_of_none rfl).symm rfl
      | some params =>
          have books : (s.step (.request pJsonDoc sizeOfBuffer (some params)
              env)).books = s.books.make (requestOf s params) (Queues s env) :=
            uiotShadowMakeRequest_books s pJsonDoc sizeOfBuffer params env
          apply follows_of_queued
          · refine (congrArg Books.requestList books).trans ?_
            unfold entries queuedBy Books.make
            dsimp only
            cases Queues s env with
            | false => exact (List.append_nil _).symm
            | true => rfl
          · have calls := congrArg Books.requestCalls books
            exact calls
  | downstream answers message env =>
      obtain ⟨version, cloudRcvBuf, books⟩ :=
        topicRequestResultHandler_books s message env
      cases settling : settlingMethod message with
      | none =>
          rw [settling] at books
          have queued :
              queuedBy s (.downstream answers message env) = none := by
            simp [queuedBy, settling]
          exact ⟨fun _ => none, follows_of_stored queued books,
            fun _ _ never => nomatch never⟩
      | some method =>
          rw [settling] at books
          refine ⟨_, follows_of_every ordered ?_ books, fun _ ack given => ?_⟩
          · simp [queuedBy, settling]
          · split at given
            · obtain rfl := Option.some.inj given
              exact ackOf_settling (settlingMethod_eq_some settling).2
            · cases given
  | getReply answers message env =>
      obtain ⟨version, cloudRcvBuf, books⟩ :=
        topicSyncHandler_books s message env
      cases settling : settlesGets message with
      | false =>
          rw [settling, if_neg (by decide)] at books
          have queued : queuedBy s (.getReply answers message env) = none := by
            simp [queuedBy, settling]
          exact ⟨fun _ => none, follows_of_stored queued books,
            fun _ _ never => nomatch never⟩
      | true =>
          rw [settling, if_pos rfl] at books
          refine ⟨_, follows_of_every ordered ?_ books, fun _ ack given => ?_⟩
          · simp [queuedBy, settling]
          · split at given
            · exact .inl (Option.some.inj given).symm
            · cases given
  | expire iteratorAllocated =>
      have books := handleExpiredRequest_books s iteratorAllocated
      have listed : entries s (.expire iteratorAllocated) = s.requestList :=
        entries_of_none rfl
      cases iteratorAllocated with
      | false =>
          exact ⟨fun _ => none, follows_of_stored rfl books,
            fun _ _ never => nomatch never⟩
      | true =>
          refine ⟨_, follows_of_settleAll ordered listed.symm rfl books,
            fun request ack given => ?_⟩
          by_cases expired : request.timer.hasExpired s.mqtt.clock = true
          · rw [if_pos expired] at given
            exact ⟨(Option.some.inj given).symm, expired⟩
          · rw [if_neg expired] at given
            cases given
  | properties propertyList =>
      have same : (s.step (.properties propertyList)).books = s.books := rfl
      exact ⟨fun _ => none, follows_of_stored rfl same,
        fun _ _ never => nomatch never⟩
  | elsewhere mqtt =>
      have same : (s.step (.elsewhere mqtt)).books = s.books := rfl
      exact ⟨fun _ => none, follows_of_stored rfl same,
        fun _ _ never => nomatch never⟩

/-! ## The list during a step -/

theorem room_of_queues {s : UIoTShadow} {env : RequestEnv}
    (queues : Queues s env = true) :
    s.requestList.length < maxAppendingRequestAtAnyGivenTime := by
  unfold Queues at queues
  simp only [Bool.and_eq_true, decide_eq_true_eq] at queues
  exact queues.1.1

/-- A queued request carries the next number, its seconds run from the clock of
its step, and there was room for it. -/
theorem queuedBy_eq_some {s : UIoTShadow} {label : Label} {request : Request}
    {timeoutSec : Nat}
    (queued : queuedBy s label = some (request, timeoutSec)) :
    request.number = s.nextNumber ∧
      request.timer = .countdown s.mqtt.clock timeoutSec ∧
      s.requestList.length < maxAppendingRequestAtAnyGivenTime := by
  have answer : ∀ desired env,
      answerQueued s desired env = some (request, timeoutSec) →
        request.number = s.nextNumber ∧
          request.timer = .countdown s.mqtt.clock timeoutSec ∧
          s.requestList.length < maxAppendingRequestAtAnyGivenTime := by
    intro desired env queued
    unfold answerQueued at queued
    split at queued
    · rename_i asks
      obtain ⟨rfl, rfl⟩ := Prod.mk.inj (Option.some.inj queued)
      exact ⟨rfl, rfl, room_of_queues (Bool.and_eq_true_iff.mp asks).2⟩
    · cases queued
  unfold queuedBy at queued
  split at queued
  · split at queued
    · rename_i queues
      obtain ⟨rfl, rfl⟩ := Prod.mk.inj (Option.some.inj queued)
      exact ⟨rfl, rfl, room_of_queues queues⟩
    · cases queued
  · obtain ⟨method, -, queued⟩ := Option.bind_eq_some_iff.mp queued
    exact answer _ _ queued
  · split at queued
    · exact answer _ _ queued
    · cases queued
  · cases queued

theorem pending_bounded {s : UIoTShadow}
    (bounded : s.requestList.length ≤ maxAppendingRequestAtAnyGivenTime)
    (desired : Option (List UInt8)) (env : MessageEnv) :
    (pending s desired env).length ≤ maxAppendingRequestAtAnyGivenTime := by
  unfold pending
  rw [List.length_append]
  split
  · rename_i asks
    exact room_of_queues (Bool.and_eq_true_iff.mp asks).2
  · exact bounded

theorem entries_nodup {s : UIoTShadow} (ordered : s.books.Ordered)
    (label : Label) : (entries s label).Nodup := by
  unfold entries
  cases queued : queuedBy s label with
  | none =>
      refine List.nodup_append.mpr ⟨ordered.nodup, List.nodup_nil, ?_⟩
      exact fun _ _ _ never => absurd never List.not_mem_nil
  | some made =>
      obtain ⟨number, -, -⟩ := queuedBy_eq_some queued
      refine List.nodup_append.mpr ⟨ordered.nodup, List.nodup_singleton _, ?_⟩
      rintro first mem second same rfl
      obtain rfl := List.mem_singleton.mp same
      exact Nat.ne_of_lt (ordered.2 _ mem) number

theorem entries_bounded {s : UIoTShadow} {label : Label}
    (bounded : s.requestList.length ≤ maxAppendingRequestAtAnyGivenTime) :
    (entries s label).length ≤ maxAppendingRequestAtAnyGivenTime := by
  unfold entries
  rw [List.length_append]
  cases queued : queuedBy s label with
  | none => exact bounded
  | some made =>
      obtain ⟨-, -, room⟩ := queuedBy_eq_some queued
      exact room

/-- Of distinct requests each is told its outcome once. -/
theorem filter_outcomes {requests : List Request} (distinct : requests.Nodup)
    (outcome : Request → Option RequestAck) {request : Request}
    (mem : request ∈ requests) {ack : RequestAck}
    (given : outcome request = some ack) :
    ((requests.filterMap fun request =>
        (outcome request).map fun ack => (request, ack)).filter
          fun call => call.1.callback.isSome).filter
            (fun call => call.1 = request) =
      if request.callback.isSome then [(request, ack)] else [] := by
  have alone : (requests.filterMap fun request =>
      (outcome request).map fun ack => (request, ack)).filter
        (fun call => call.1 = request) = [(request, ack)] := by
    induction requests with
    | nil => exact absurd mem List.not_mem_nil
    | cons first requests inductionHypothesis =>
        obtain ⟨absent, distinct⟩ := List.nodup_cons.mp distinct
        rcases List.mem_cons.mp mem with rfl | later
        · rw [List.filterMap_cons_some (by rw [given]; rfl),
            List.filter_cons_of_pos (by simp)]
          congr 1
          rw [List.filter_eq_nil_iff]
          intro call called same
          obtain ⟨other, listed, outcome_eq⟩ := List.mem_filterMap.mp called
          obtain ⟨_, -, rfl⟩ := Option.map_eq_some_iff.mp outcome_eq
          exact absent (of_decide_eq_true same ▸ listed)
        · have ne : first ≠ request := by
            rintro rfl
            exact absent later
          rw [← inductionHypothesis distinct later]
          cases settled : outcome first with
          | none => simp [settled]
          | some other => simp [settled, ne]
  rw [List.filter_comm, alone]
  cases called : request.callback <;> simp [called]

/-! ## Runs -/

/-- The requests of every state of a run are in order and not too many. -/
theorem run_ordered (mqtt : Mqtt.Client) (productSn deviceSn : CString)
    (front : List Label) :
    let s := run UIoTShadow.step (uiotShadowInit mqtt productSn deviceSn) front
    s.books.Ordered ∧
      s.requestList.length ≤ maxAppendingRequestAtAnyGivenTime := by
  apply Machine.run_preserves fun s : UIoTShadow =>
    s.books.Ordered ∧
      s.requestList.length ≤ maxAppendingRequestAtAnyGivenTime
  · intro s label ⟨ordered, bounded⟩
    refine ⟨step_ordered s label ordered, ?_⟩
    obtain ⟨outcome, follows, -⟩ := step_follows ordered label
    rw [follows.list]
    exact (List.length_filter_le ..).trans (entries_bounded bounded)
  · exact ⟨⟨List.Pairwise.nil, fun _ never => absurd never List.not_mem_nil⟩,
      Nat.zero_le _⟩

/-- The requests on the list were queued by the run. -/
theorem run_queued (mqtt : Mqtt.Client) (productSn deviceSn : CString)
    (front : List Label) :
    let start := uiotShadowInit mqtt productSn deviceSn
    ∀ request ∈ (run UIoTShadow.step start front).requestList,
      ∃ first label second timeoutSec,
        front = first ++ label :: second ∧
          queuedBy (run UIoTShadow.step start first) label =
            some (request, timeoutSec) := by
  intro start
  induction front using List.reverseRecOn with
  | nil => exact fun _ never => absurd never List.not_mem_nil
  | append_singleton front label inductionHypothesis =>
      intro request mem
      rw [Machine.run_append] at mem
      obtain ⟨ordered, -⟩ := run_ordered mqtt productSn deviceSn front
      obtain ⟨outcome, follows, -⟩ := step_follows ordered label
      have after : request ∈
          ((run UIoTShadow.step start front).step label).requestList := mem
      rw [follows.list] at after
      rcases List.mem_append.mp (List.mem_of_mem_filter after) with
        before | entered
      · obtain ⟨first, earlier, second, timeoutSec, rfl, queued⟩ :=
          inductionHypothesis request before
        exact ⟨first, earlier, second ++ [label], timeoutSec, by simp, queued⟩
      · obtain ⟨⟨made, timeoutSec⟩, queued, same⟩ :=
          Option.map_eq_some_iff.mp (Option.mem_toList.mp entered)
        obtain rfl : made = request := same
        exact ⟨front, label, [], timeoutSec, rfl, queued⟩

/-- Every step behind a run takes requests off the list as it should. -/
theorem run_lifecycle_step (mqtt : Mqtt.Client) (productSn deviceSn : CString)
    (front : List Label) (label : Label) :
    Lifecycle (uiotShadowInit mqtt productSn deviceSn) front label := by
  obtain ⟨ordered, bounded⟩ := run_ordered mqtt productSn deviceSn front
  have origins := run_queued mqtt productSn deviceSn front
  obtain ⟨outcome, follows, permitted⟩ := step_follows ordered label
  have distinct := entries_nodup ordered label
  refine ⟨distinct, ?_, fun request mem gone => ?_, fun call called => ?_,
    entries_bounded bounded⟩
  · refine follows.list.trans (List.filter_congr fun request mem => ?_)
    rw [follows.list, Bool.eq_iff_iff, decide_eq_true_iff, List.mem_filter]
    exact (and_iff_right mem).symm
  · obtain ⟨ack, given⟩ := (follows.leaves_iff mem).mp gone
    refine ⟨ack, ?_, ?_⟩
    · have allowed := permitted request ack given
      cases label with
      | downstream answers message env => exact allowed
      | getReply answers message env => exact allowed
      | expire iteratorAllocated =>
          obtain ⟨timeout, expired⟩ := allowed
          rw [entries_of_none rfl] at mem
          obtain ⟨first, earlier, second, timeoutSec, split, queued⟩ :=
            origins request mem
          obtain ⟨-, timer, -⟩ := queuedBy_eq_some queued
          refine ⟨timeout, first, earlier, second, timeoutSec, split, queued,
            ?_⟩
          rw [timer] at expired
          exact of_decide_eq_true expired
      | _ => exact allowed
    · rw [follows.told]
      refine (filter_outcomes (List.nodup_reverse.mpr distinct) outcome
        (List.mem_reverse.mpr mem) given)
  · rw [follows.told] at called
    obtain ⟨request, mem, settled⟩ :=
      List.mem_filterMap.mp (List.mem_of_mem_filter called)
    obtain ⟨ack, given, rfl⟩ := Option.map_eq_some_iff.mp settled
    have mem := List.mem_reverse.mp mem
    exact ⟨mem, (follows.leaves_iff mem).mpr ⟨ack, given⟩⟩

/-- Whatever nodes hold the requests, the functions on nodes follow no pointer
to a freed one, do what the functions on requests do, and leave nodes that hold
what these leave: with one more at the end, or with some fewer. -/
structure NodesSound (s : UIoTShadow) : Prop where
  add : ∀ list entries, Listed s list entries → ∀ params env node,
    list.nodes node = none →
      ∃ after added,
        shadowAddRequestNode s list params env node =
          some (((shadowAddRequestToList s params env).1, after),
            (shadowAddRequestToList s params env).2) ∧
        Listed (shadowAddRequestToList s params env).1 after
          (entries ++ added) ∧
        added.length ≤ 1
  message : ∀ list entries, Listed s list entries →
    ∀ iteratorAllocated pType,
      ∃ after remaining,
        traverseNodes (entries.length + 1) s list iteratorAllocated
            (handleRequestNode pType) =
          some (traverseList s iteratorAllocated (handleRequestCallback pType),
            after) ∧
        Listed (traverseList s iteratorAllocated (handleRequestCallback pType))
          after remaining ∧
        remaining.Sublist entries
  expire : ∀ list entries, Listed s list entries → ∀ iteratorAllocated,
    ∃ after remaining,
      traverseNodes (entries.length + 1) s list iteratorAllocated
          handleExpiredNode =
        some (handleExpiredRequest s iteratorAllocated, after) ∧
      Listed (handleExpiredRequest s iteratorAllocated) after remaining ∧
      remaining.Sublist entries

/-- Nodes are sound for requests in order and not too many. -/
theorem nodesSound {s : UIoTShadow} (ordered : s.books.Ordered)
    (bounded : s.requestList.length ≤ maxAppendingRequestAtAnyGivenTime) :
    NodesSound s := by
  have small : ∀ {list entries}, Listed s list entries →
      entries.length < 2 ^ 32 := by
    intro list entries listed
    rw [← List.length_map (f := Prod.snd), listed.requests]
    exact Nat.lt_of_le_of_lt bounded (by decide)
  constructor
  · intro list entries listed params env node free
    exact shadowAddRequestNode_refines listed (small listed) params env free
  · intro list entries listed iteratorAllocated pType
    exact traverseNodes_refines (fun _ _ => rfl) listed ordered (small listed)
      (Nat.lt_succ_self _) iteratorAllocated
  · intro list entries listed iteratorAllocated
    refine traverseNodes_refines (fun s request => ?_) listed ordered
      (small listed) (Nat.lt_succ_self _) iteratorAllocated
    unfold handleExpiredRequestCallback
    split <;> rfl

/-- In every run each step takes requests off the list as it should; and in the
states in which a step queues a request or goes through the requests, at its
beginning or when the properties of its message are handled, the nodes are
sound. -/
theorem run_lifecycle (mqtt : Mqtt.Client) (productSn deviceSn : CString)
    (front : List Label) (label : Label) :
    let start := uiotShadowInit mqtt productSn deviceSn
    let s := run UIoTShadow.step start front
    Lifecycle start front label ∧ NodesSound s ∧
      ∀ version cloudRcvBuf desired env,
        NodesSound
          (handleDesired { s with version, cloudRcvBuf } desired env) := by
  intro start s
  obtain ⟨ordered, bounded⟩ := run_ordered mqtt productSn deviceSn front
  refine ⟨run_lifecycle_step mqtt productSn deviceSn front label,
    nodesSound ordered bounded, fun version cloudRcvBuf desired env => ?_⟩
  have books := handleDesired_books { s with version, cloudRcvBuf } desired env
  apply nodesSound
  · rw [books]
    exact booksBehindDelta_ordered ordered version cloudRcvBuf desired env
  · have list := (congrArg Books.requestList books).trans
      (booksBehindDelta_eq s version cloudRcvBuf desired env).1
    have list : (handleDesired { s with version, cloudRcvBuf } desired
      env).requestList = pending s desired env := list
    rw [list]
    exact pending_bounded bounded desired env

end Shadow
end UIoT
