import UIoT.Shadow.Messages

/-!
# The books of a shadow client

What each function does to `request_list` and to the records of completed
requests and of the calls of their callbacks.  Requests are put on the list by
`shadow_add_request_to_list` and taken off by `_traverse_list` only.
-/

namespace UIoT
namespace Shadow

/-! ## Books -/

/-- The request a call tells about, with its outcome. -/
def Call.ofRequest : Call → Option (Request × RequestAck)
  | .request entry ack _ => some (entry, ack)
  | .property _ _ => none

/-- The part of a shadow client that records its requests, with the last
message and its version. -/
structure Books where
  version : UInt32
  cloudRcvBuf : List UInt8
  requestList : List Request
  requestCalls : List (Request × RequestAck)
  completed : List (Request × RequestAck)
  nextNumber : Nat

/-- The books of a shadow client. -/
def UIoTShadow.books (s : UIoTShadow) : Books where
  version := s.version
  cloudRcvBuf := s.cloudRcvBuf
  requestList := s.requestList
  requestCalls := s.calls.filterMap Call.ofRequest
  completed := s.completed
  nextNumber := s.nextNumber

namespace Books

/-- A request is made and, where it can be, queued. -/
def make (b : Books) (request : Request) (queued : Bool) : Books :=
  { b with
    requestList := if queued then b.requestList ++ [request] else b.requestList
    nextNumber := b.nextNumber + 1 }

/-- A request is taken off the list with its outcome. -/
def finish (b : Books) (request : Request) (ack : RequestAck) : Books :=
  { b with
    requestList :=
      b.requestList.eraseP fun other => other.number = request.number
    requestCalls :=
      if request.callback.isSome then b.requestCalls ++ [(request, ack)]
      else b.requestCalls
    completed := b.completed ++ [(request, ack)] }

/-- A request is taken off the list if it has an outcome. -/
def settle (outcome : Request → Option RequestAck) (b : Books)
    (request : Request) : Books :=
  match outcome request with
  | none => b
  | some ack => b.finish request ack

/-- Every request on the list that has an outcome is taken off, beginning with
the last. -/
def settleAll (outcome : Request → Option RequestAck) (b : Books) : Books :=
  b.requestList.reverse.foldl (settle outcome) b

/-- Settling takes requests off the list and tells only about these. -/
theorem settleAll_members (outcome : Request → Option RequestAck) (b : Books) :
    (b.settleAll outcome).requestList.Sublist b.requestList ∧
      (∀ call ∈ (b.settleAll outcome).requestCalls,
        call ∈ b.requestCalls ∨ call.1 ∈ b.requestList) ∧
      (b.settleAll outcome).nextNumber = b.nextNumber := by
  have loop : ∀ (requests : List Request) (b : Books),
      (requests.foldl (settle outcome) b).requestList.Sublist b.requestList ∧
        (∀ call ∈ (requests.foldl (settle outcome) b).requestCalls,
          call ∈ b.requestCalls ∨ call.1 ∈ requests) ∧
        (requests.foldl (settle outcome) b).nextNumber = b.nextNumber := by
    intro requests
    induction requests with
    | nil => exact fun b => ⟨List.Sublist.refl _, fun call mem => .inl mem, rfl⟩
    | cons request requests inductionHypothesis =>
        intro b
        obtain ⟨sublist, calls, number⟩ :=
          inductionHypothesis (settle outcome b request)
        rw [List.foldl_cons]
        rw [settle] at sublist calls number ⊢
        cases settled : outcome request with
        | none =>
            rw [settled] at sublist calls number
            refine ⟨sublist, fun call mem => ?_, number⟩
            exact (calls call mem).imp_right (List.mem_cons_of_mem _)
        | some ack =>
            rw [settled] at sublist calls number
            refine ⟨sublist.trans List.eraseP_sublist, fun call mem => ?_, number⟩
            rcases calls call mem with before | later
            · unfold finish at before
              dsimp only at before
              split at before
              · rcases List.mem_append.mp before with told | this
                · exact .inl told
                · obtain rfl := List.mem_singleton.mp this
                  exact .inr (List.mem_cons_self ..)
              · exact .inl before
            · exact .inr (List.mem_cons_of_mem _ later)
  obtain ⟨sublist, calls, number⟩ := loop b.requestList.reverse b
  refine ⟨sublist, fun call mem => ?_, number⟩
  exact (calls call mem).imp_right List.mem_reverse.mp

end Books

/-! ## Requests -/

/-- There is room for another request on the list. -/
def Queues (s : UIoTShadow) (env : RequestEnv) : Bool :=
  s.requestList.length < maxAppendingRequestAtAnyGivenTime &&
    env.requestAllocated && env.nodeAllocated

theorem shadowAddRequestToList_eq (s : UIoTShadow) (params : RequestParams)
    (env : RequestEnv) :
    (shadowAddRequestToList s params env).1 =
      { s with
        requestList :=
          if Queues s env then s.requestList ++ [requestOf s params]
          else s.requestList } := by
  unfold shadowAddRequestToList Queues
  dsimp only [UIoTShadow.lock, UIoTShadow.unlock]
  rw [List.erase_cons_head]
  by_cases full : s.requestList.length ≥ maxAppendingRequestAtAnyGivenTime
  · rw [if_pos full, if_neg (by simp [Nat.not_lt.mpr full])]
  rw [if_neg full]
  have room := Nat.not_le.mp full
  cases entry : env.requestAllocated with
  | false => simp
  | true =>
      cases node : env.nodeAllocated with
      | false => simp
      | true => simp [room, requestOf]

theorem uiotShadowPublishOperationToCloud_books (s : UIoTShadow)
    (method : Method) (pJsonDoc : List UInt8) (env : RequestEnv) :
    (uiotShadowPublishOperationToCloud s method pJsonDoc env).1.books =
      s.books := by
  unfold uiotShadowPublishOperationToCloud
  dsimp only
  split
  · rfl
  · split <;> rfl

theorem foldl_updateProperty_books (s : UIoTShadow) (params : RequestParams)
    (env : RequestEnv) (properties : List DeviceProperty) :
    (properties.foldl (fun s property =>
      shadowCommonUpdateProperty s property params.method
        (env.findAllocated property)) s).books = s.books := by
  induction properties generalizing s with
  | nil => rfl
  | cons property properties inductionHypothesis =>
      rw [List.foldl_cons, inductionHypothesis]
      unfold shadowCommonUpdateProperty
      dsimp only
      split <;> rfl

theorem uiotShadowUpdateProperty_books (s : UIoTShadow) (params : RequestParams)
    (env : RequestEnv) :
    (uiotShadowUpdateProperty s params env).1.books = s.books := by
  unfold uiotShadowUpdateProperty
  split
  · dsimp only
    split
    · rfl
    · split <;> rfl
  split
  · rfl
  split
  · rfl
  · exact foldl_updateProperty_books ..

theorem makeQueuedRequest_books (s : UIoTShadow)
    (pJsonDoc : Option (List UInt8)) (sizeOfBuffer : Nat)
    (params : RequestParams) (env : RequestEnv) :
    (makeQueuedRequest s pJsonDoc sizeOfBuffer params env).1.books =
      s.books := by
  unfold makeQueuedRequest
  split
  · rfl
  · rename_i document _
    have publishes :=
      uiotShadowPublishOperationToCloud_books s params.method document env
    dsimp only
    split
    · exact publishes
    · exact (uiotShadowUpdateProperty_books ..).trans publishes

theorem uiotShadowMakeRequest_eq (s : UIoTShadow)
    (pJsonDoc : Option (List UInt8)) (sizeOfBuffer : Nat)
    (params : RequestParams) (env : RequestEnv) :
    uiotShadowMakeRequest s pJsonDoc sizeOfBuffer (some params) env =
      makeQueuedRequest
        { s with
          requestList :=
            if Queues s env then s.requestList ++ [requestOf s params]
            else s.requestList
          nextNumber := s.nextNumber + 1 }
        pJsonDoc sizeOfBuffer params env := by
  unfold uiotShadowMakeRequest
  dsimp only
  rw [shadowAddRequestToList_eq]

/-- A request is made, whatever becomes of its document. -/
theorem uiotShadowMakeRequest_books (s : UIoTShadow)
    (pJsonDoc : Option (List UInt8)) (sizeOfBuffer : Nat)
    (params : RequestParams) (env : RequestEnv) :
    (uiotShadowMakeRequest s pJsonDoc sizeOfBuffer (some params) env).1.books =
      s.books.make (requestOf s params) (Queues s env) := by
  rw [uiotShadowMakeRequest_eq, makeQueuedRequest_books]
  rfl

/-! ## Traversals -/

theorem finish_books (s : UIoTShadow) (request : Request) (ack : RequestAck) :
    (finish s request ack).books = s.books.finish request ack := by
  cases called : request.callback with
  | none => simp [finish, UIoTShadow.books, Books.finish, called]
  | some callback =>
      simp [finish, UIoTShadow.books, Books.finish, called, Call.ofRequest]

/-- A handler whose outcomes depend on nothing it changes settles the books. -/
theorem traverseList_books (s : UIoTShadow)
    (traverseHandle : UIoTShadow → Request → UIoTShadow)
    (outcome : Request → Option RequestAck)
    (settles : ∀ (s' : UIoTShadow) request, s'.mqtt = s.mqtt →
      s'.cloudRcvBuf = s.cloudRcvBuf →
      traverseHandle s' request =
        match outcome request with
        | none => s'
        | some ack => finish s' request ack) :
    (traverseList s true traverseHandle).books =
      s.books.settleAll outcome := by
  have loop : ∀ (requests : List Request) (s' : UIoTShadow),
      s'.mqtt = s.mqtt → s'.cloudRcvBuf = s.cloudRcvBuf →
        (requests.foldl traverseHandle s').books =
          requests.foldl (Books.settle outcome) s'.books := by
    intro requests
    induction requests with
    | nil => exact fun _ _ _ => rfl
    | cons request requests inductionHypothesis =>
        intro s' mqtt buffer
        rw [List.foldl_cons, List.foldl_cons,
          settles s' request mqtt buffer, Books.settle]
        cases outcome request with
        | none => exact inductionHypothesis s' mqtt buffer
        | some ack =>
            have kept : (finish s' request ack).mqtt = s.mqtt ∧
                (finish s' request ack).cloudRcvBuf = s.cloudRcvBuf := by
              unfold finish
              cases request.callback <;> exact ⟨mqtt, buffer⟩
            dsimp only
            rw [inductionHypothesis _ kept.1 kept.2, finish_books]
  unfold traverseList Books.settleAll
  dsimp only
  split
  · rename_i empty
    have empty : s.requestList = [] := List.length_eq_zero_iff.mp empty
    have nothing : s.books.requestList = [] := empty
    rw [nothing]
    rfl
  · rw [if_neg (by decide)]
    exact loop s.requestList.reverse (s.lock .request) rfl rfl

theorem traverseList_unallocated (s : UIoTShadow)
    (traverseHandle : UIoTShadow → Request → UIoTShadow) :
    (traverseList s false traverseHandle).books = s.books := by
  unfold traverseList
  dsimp only
  split <;> rfl

/-! ## Messages -/

/-- `_handle_delta` makes a request that answers. -/
def Answers (s : UIoTShadow) (env : MessageEnv) : Bool :=
  env.paramsAllocated &&
    (s.propertyList.length = 0 || env.propertyIteratorAllocated)

/-- The request that answers. -/
def replyRequest (s : UIoTShadow) : Request :=
  requestOf s (replyParams s.cloudSendMethod)

/-- The callbacks of the properties only add to the list of the request that
answers. -/
theorem foldl_handleProperty (deltaStr : List UInt8) (env : MessageEnv)
    (handlers done : List PropertyHandler) (s : UIoTShadow)
    (params : RequestParams) (allocated : Bool) :
    ∃ deltas, ∃ next : UIoTShadow, ∃ propertyList,
      handlers.foldl (handleProperty deltaStr env)
          (s, if allocated then some params else none, done) =
        (next,
          if allocated then some { params with propertyDeltaList := deltas }
          else none, propertyList) ∧
      next.books = s.books ∧ next.mqtt = s.mqtt := by
  induction handlers generalizing s params done with
  | nil => exact ⟨params.propertyDeltaList, s, done, rfl, rfl, rfl⟩
  | cons handler handlers inductionHypothesis =>
      rw [List.foldl_cons, handleProperty]
      cases findValueIfKeyMatch (env.valueCopied handler) deltaStr
        handler.property with
      | none => exact inductionHypothesis (handler :: done) s params
      | some value =>
          dsimp only
          let added : RequestParams :=
            { params with
              propertyDeltaList :=
                params.propertyDeltaList ++
                  (env.onProperty handler value).added }
          have params_eq : (if allocated then some params else none).map
              (fun params =>
                { params with
                  propertyDeltaList := params.propertyDeltaList ++
                    (env.onProperty handler value).added }) =
              if allocated then some added else none := by
            cases allocated <;> rfl
          rw [params_eq]
          obtain ⟨deltas, next, propertyList, folds, books, mqtt⟩ :=
            inductionHypothesis _ (s.call (.property handler value)) added
          refine ⟨deltas, next, propertyList, folds, books.trans ?_, mqtt⟩
          simp [UIoTShadow.books, Call.ofRequest]

theorem handleDelta_books (s : UIoTShadow) (deltaStr : List UInt8)
    (env : MessageEnv) :
    (handleDelta s deltaStr env).books =
      if Answers s env then
        s.books.make (replyRequest s) (Queues s env.reply)
      else s.books := by
  unfold handleDelta Answers
  dsimp only
  obtain ⟨deltas, next, propertyList, folds, books, mqtt⟩ :=
    foldl_handleProperty deltaStr env s.propertyList.reverse []
      (s.lock .property) (replyParams s.cloudSendMethod) env.paramsAllocated
  have locked : (s.lock .property).propertyList = s.propertyList := rfl
  rw [locked, folds]
  dsimp only
  split
  · rename_i unallocated
    have missing : env.propertyIteratorAllocated = false := by
      simpa using unallocated.2
    rw [if_neg (by simp [unallocated.1, missing])]
    rfl
  · rename_i allocated
    have iterates : s.propertyList.length = 0 ∨
        env.propertyIteratorAllocated = true := by
      by_contra neither
      rw [not_or] at neither
      exact allocated ⟨neither.1, by simpa using neither.2⟩
    cases made : env.paramsAllocated with
    | false =>
        rw [if_neg (by simp), if_neg (by simp), uiotShadowMakeRequest]
        exact books
    | true =>
        rw [if_pos rfl, uiotShadowMakeRequest_books,
          if_pos (by simpa using iterates)]
        have list : next.requestList = s.requestList :=
          congrArg Books.requestList books
        have number : next.nextNumber = s.nextNumber :=
          congrArg Books.nextNumber books
        have clock : next.mqtt.clock = s.mqtt.clock :=
          congrArg Mqtt.Client.clock mqtt
        have queues : Queues ({ next with propertyList }.unlock .property)
            env.reply = Queues s env.reply := by
          simp [Queues, list]
        have request : requestOf ({ next with propertyList }.unlock .property)
            { replyParams s.cloudSendMethod with propertyDeltaList := deltas } =
            replyRequest s := by
          simp [requestOf, replyRequest, number, clock]
        rw [queues, request]
        exact congrArg (Books.make · _ _) books

/-- The books once the properties of a message are handled. -/
def booksBehindDelta (s : UIoTShadow) (desired : Option (List UInt8))
    (env : MessageEnv) : Books :=
  if desired.any (·.length > 2) && Answers s env then
    s.books.make (replyRequest s) (Queues s env.reply)
  else s.books

theorem handleDesired_books (s : UIoTShadow) (desired : Option (List UInt8))
    (env : MessageEnv) :
    (handleDesired s desired env).books = booksBehindDelta s desired env := by
  unfold handleDesired booksBehindDelta
  cases desired with
  | none => rfl
  | some desired =>
      dsimp only
      by_cases long : desired.length > 2
      · rw [if_pos long, handleDelta_books]
        simp [long]
      · rw [if_neg long, if_neg (by simp [long])]

/-- Every request on the list gets the same outcome, where the iterator can be
allocated. -/
def Books.settleEvery (b : Books) (iteratorAllocated : Bool)
    (ack : RequestAck) : Books :=
  if iteratorAllocated then b.settleAll fun _ => some ack else b

theorem traverseList_handleRequestCallback (s : UIoTShadow)
    (iteratorAllocated : Bool) (method : List UInt8) :
    (traverseList s iteratorAllocated (handleRequestCallback method)).books =
      s.books.settleEvery iteratorAllocated (ackOf s.cloudRcvBuf method) := by
  cases iteratorAllocated with
  | false => exact traverseList_unallocated ..
  | true =>
      refine traverseList_books s _ (fun _ => some (ackOf s.cloudRcvBuf method))
        fun s' request mqtt buffer => ?_
      rw [handleRequestCallback, buffer]

theorem handleExpiredRequest_books (s : UIoTShadow)
    (iteratorAllocated : Bool) :
    (handleExpiredRequest s iteratorAllocated).books =
      if iteratorAllocated then
        s.books.settleAll fun request =>
          if request.timer.hasExpired s.mqtt.clock then some .timeout else none
      else s.books := by
  cases iteratorAllocated with
  | false => exact traverseList_unallocated ..
  | true =>
      refine traverseList_books s _ _ fun s' request mqtt buffer => ?_
      rw [handleExpiredRequestCallback, mqtt]
      split <;> rfl

/-- What a control message asks to change. -/
def controlDesired (method cloudRcvBuf : List UInt8) : Option (List UInt8) :=
  if method = methodControl then parseShadowPayloadStateDesiredState cloudRcvBuf
  else none

/-- A message of the method makes the handler go through the requests: a reply
that reports success, or a control message. -/
def Settles (method cloudRcvBuf : List UInt8) : Bool :=
  method = methodReply &&
      parseShadowPayloadRetcodeType cloudRcvBuf = some 0 ||
    method = methodControl

/-- A message of a known method makes the handler go through the requests, once
its properties are handled, or changes nothing. -/
theorem handleResult_eq (s : UIoTShadow) (method : List UInt8)
    (env : MessageEnv) :
    handleResult s method env =
      if Settles method s.cloudRcvBuf then
        traverseList
          (handleDesired s (controlDesired method s.cloudRcvBuf) env)
          env.traverseIteratorAllocated (handleRequestCallback method)
      else s := by
  unfold handleResult Settles controlDesired
  by_cases reply : method = methodReply
  · have notControl : method ≠ methodControl := by
      rw [reply]
      decide
    rw [if_pos reply, if_neg notControl]
    cases parseShadowPayloadRetcodeType s.cloudRcvBuf with
    | none => simp [notControl]
    | some retCode =>
        dsimp only
        by_cases success : retCode = 0
        · rw [if_neg (not_not_intro success), if_pos (by simp [reply, success])]
          rfl
        · rw [if_pos success, if_neg (by simp [notControl, success])]
  rw [if_neg reply]
  by_cases control : method = methodControl
  · rw [if_pos control, if_pos control, if_pos (by simp [control])]
  · rw [if_neg control, if_neg (by simp [reply, control])]

/-- Going through the requests behind the properties settles the books. -/
theorem traverseList_handleDesired_books (s : UIoTShadow)
    (desired : Option (List UInt8)) (env : MessageEnv) (method : List UInt8) :
    (traverseList (handleDesired s desired env) env.traverseIteratorAllocated
        (handleRequestCallback method)).books =
      (booksBehindDelta s desired env).settleEvery
        env.traverseIteratorAllocated (ackOf s.cloudRcvBuf method) := by
  have behind := handleDesired_books s desired env
  generalize handleDesired s desired env = next at behind ⊢
  have buffer : next.cloudRcvBuf = s.cloudRcvBuf := by
    have kept := congrArg Books.cloudRcvBuf behind
    unfold booksBehindDelta at kept
    split at kept <;> exact kept
  rw [traverseList_handleRequestCallback, behind, buffer]

/-- The method of a downstream message behind which the handler goes through
the requests. -/
def settlingMethod (message : Message) : Option (List UInt8) :=
  let cloudRcvBuf := received message.payload
  if message.topicLen ≤ 0 ∨ message.payload.length > uiotMqttRxBufLen + 1 then
    none
  else
    (parseShadowMethodType cloudRcvBuf).filter fun method =>
      (parseVersionNum cloudRcvBuf).isSome && Settles method cloudRcvBuf

/-- A downstream message is stored, and its version is taken; then the handler
goes through the requests or leaves them alone. -/
theorem topicRequestResultHandler_eq (s : UIoTShadow) (message : Message)
    (env : MessageEnv) :
    ∃ version cloudRcvBuf,
      topicRequestResultHandler s message env =
        match settlingMethod message with
        | none => { s with version, cloudRcvBuf }
        | some method =>
            traverseList
              (handleDesired
                { s with version, cloudRcvBuf := received message.payload }
                (controlDesired method (received message.payload)) env)
              env.traverseIteratorAllocated (handleRequestCallback method) := by
  unfold topicRequestResultHandler settlingMethod
  by_cases topic : message.topicLen ≤ 0
  · rw [if_pos topic, if_pos (.inl topic)]
    exact ⟨s.version, s.cloudRcvBuf, rfl⟩
  rw [if_neg topic]
  by_cases long : message.payload.length > uiotMqttRxBufLen + 1
  · rw [if_pos long, if_pos (.inr long)]
    exact ⟨s.version, s.cloudRcvBuf, rfl⟩
  rw [if_neg long, if_neg (by simp [topic, long])]
  dsimp only
  cases parseShadowMethodType (received message.payload) with
  | none => exact ⟨s.version, received message.payload, rfl⟩
  | some method =>
      cases parseVersionNum (received message.payload) with
      | none => exact ⟨s.version, received message.payload, rfl⟩
      | some version =>
          refine ⟨version, received message.payload, ?_⟩
          dsimp only
          rw [handleResult_eq, Option.filter_some]
          cases Settles method (received message.payload) with
          | false => rfl
          | true => rfl

theorem topicRequestResultHandler_books (s : UIoTShadow) (message : Message)
    (env : MessageEnv) :
    ∃ version cloudRcvBuf,
      (topicRequestResultHandler s message env).books =
        match settlingMethod message with
        | none => { s.books with version, cloudRcvBuf }
        | some method =>
            (booksBehindDelta
              { s with version, cloudRcvBuf := received message.payload }
              (controlDesired method (received message.payload)) env).settleEvery
                env.traverseIteratorAllocated
                (ackOf (received message.payload) method) := by
  obtain ⟨version, cloudRcvBuf, handled⟩ :=
    topicRequestResultHandler_eq s message env
  refine ⟨version, cloudRcvBuf, ?_⟩
  rw [handled]
  cases settlingMethod message with
  | none => rfl
  | some method => exact traverseList_handleDesired_books ..

/-- A message on the topic of get-replies makes the handler go through the
requests. -/
def settlesGets (message : Message) : Bool :=
  !(message.topicLen ≤ 0 ∨ message.payload.length > uiotMqttRxBufLen + 1) &&
    (parseVersionNum (received message.payload)).isSome

/-- A get-reply is stored, and its version is taken; then the handler goes
through the requests or leaves them alone. -/
theorem topicSyncHandler_eq (s : UIoTShadow) (message : Message)
    (env : MessageEnv) :
    ∃ version cloudRcvBuf,
      topicSyncHandler s message env =
        if settlesGets message then
          traverseList
            (handleDesired
              { s with version, cloudRcvBuf := received message.payload }
              (parseShadowStateDesiredType (received message.payload)) env)
            env.traverseIteratorAllocated (handleRequestCallback methodGetReply)
        else { s with version, cloudRcvBuf } := by
  unfold topicSyncHandler settlesGets
  by_cases topic : message.topicLen ≤ 0
  · refine ⟨s.version, s.cloudRcvBuf, ?_⟩
    rw [if_pos topic, if_neg (by simp [topic])]
  rw [if_neg topic]
  by_cases long : message.payload.length > uiotMqttRxBufLen + 1
  · refine ⟨s.version, s.cloudRcvBuf, ?_⟩
    rw [if_pos long, if_neg (by simp [long])]
  rw [if_neg long]
  dsimp only
  cases parseVersionNum (received message.payload) with
  | none => exact ⟨s.version, received message.payload, by simp⟩
  | some version =>
      refine ⟨version, received message.payload, ?_⟩
      rw [if_pos (by simp [topic, long])]

theorem topicSyncHandler_books (s : UIoTShadow) (message : Message)
    (env : MessageEnv) :
    ∃ version cloudRcvBuf,
      (topicSyncHandler s message env).books =
        if settlesGets message then
          (booksBehindDelta
            { s with version, cloudRcvBuf := received message.payload }
            (parseShadowStateDesiredType (received message.payload))
            env).settleEvery env.traverseIteratorAllocated .accepted
        else { s.books with version, cloudRcvBuf } := by
  obtain ⟨version, cloudRcvBuf, handled⟩ := topicSyncHandler_eq s message env
  refine ⟨version, cloudRcvBuf, ?_⟩
  rw [handled]
  split
  · rw [traverseList_handleDesired_books]
    congr 1
  · rfl

/-! ## Steps -/

/-- A property of the books that making a request and settling keep is kept by
every step. -/
theorem step_preserves {invariant : Books → Prop}
    (stored : ∀ b version cloudRcvBuf, invariant b →
      invariant { b with version, cloudRcvBuf })
    (makes : ∀ b request queued, request.number = b.nextNumber →
      invariant b → invariant (b.make request queued))
    (settles : ∀ b outcome, invariant b → invariant (b.settleAll outcome))
    (s : UIoTShadow) (label : Label) (holds : invariant s.books) :
    invariant (s.step label).books := by
  have behind : ∀ (s : UIoTShadow) desired env, invariant s.books →
      invariant (booksBehindDelta s desired env) := by
    intro s desired env holds
    unfold booksBehindDelta
    split
    · exact makes _ _ _ rfl holds
    · exact holds
  have every : ∀ b iteratorAllocated ack, invariant b →
      invariant (Books.settleEvery b iteratorAllocated ack) := by
    intro b iteratorAllocated ack holds
    cases iteratorAllocated with
    | false => exact holds
    | true => exact settles _ _ holds
  have received : ∀ version cloudRcvBuf,
      invariant { s with version, cloudRcvBuf : UIoTShadow }.books :=
    fun version cloudRcvBuf => stored s.books version cloudRcvBuf holds
  cases label with
  | request pJsonDoc sizeOfBuffer params env =>
      cases params with
      | none => exact holds
      | some params =>
          rw [UIoTShadow.step, uiotShadowMakeRequest_books]
          exact makes _ _ _ rfl holds
  | downstream answers message env =>
      obtain ⟨version, cloudRcvBuf, books⟩ :=
        topicRequestResultHandler_books s message env
      rw [UIoTShadow.step, books]
      cases settlingMethod message with
      | none => exact received version cloudRcvBuf
      | some method => exact every _ _ _ (behind _ _ _ (received _ _))
  | getReply answers message env =>
      obtain ⟨version, cloudRcvBuf, books⟩ := topicSyncHandler_books s message env
      rw [UIoTShadow.step, books]
      split
      · exact every _ _ _ (behind _ _ _ (received _ _))
      · exact received version cloudRcvBuf
  | expire iteratorAllocated =>
      rw [UIoTShadow.step, handleExpiredRequest_books]
      split
      · exact settles _ _ holds
      · exact holds
  | properties propertyList => exact holds
  | elsewhere mqtt => exact holds

end Shadow
end UIoT
