import UIoT.Shadow.Correlation

/-!
# The mutexes of a shadow client

Callbacks are called from inside of traversals: of `request_list` with
`request_mutex` locked, of the registered properties with `property_mutex`
locked.  And where the iterator over the registered properties cannot be
allocated, two functions return with `property_mutex` locked.  What remains are
the steps that call nothing and allocate this iterator.
-/

namespace UIoT
namespace Shadow

open Machine (run Along)

/-! ## The discipline -/

/-- The step calls its callbacks with no mutex held, and leaves both mutexes as
it found them. -/
def LockDisciplined (s : UIoTShadow) (label : Label) : Prop :=
  (∀ locks ∈ (s.step label).callbackLocks.drop s.callbackLocks.length,
      locks = []) ∧
    (s.step label).held = s.held

/-! ## When it is kept -/

/-- A request to delete everything finds properties, but its iterator over them
cannot be allocated when it has been published. -/
def Leaks (s : UIoTShadow) (pJsonDoc : Option (List UInt8))
    (sizeOfBuffer : Nat) (params : RequestParams) (env : RequestEnv) : Prop :=
  params.method = .deleteAll ∧ s.propertyList ≠ [] ∧
    env.updateIteratorAllocated = false ∧
      ∃ document,
        buildDocument pJsonDoc sizeOfBuffer params s.version
            env.contentIteratorAllocated = .ok document ∧
          (uiotShadowPublishOperationToCloud s params.method document env).2 =
            .successRet

/-- The desired state of a message, where it is looked at, has a value for no
registered property, and the iterator over these can be allocated. -/
def QuietDesired (s : UIoTShadow) (desired : Option (List UInt8))
    (env : MessageEnv) : Prop :=
  ∀ deltaStr, desired = some deltaStr → deltaStr.length > 2 →
    s.propertyList ≠ [] →
      env.propertyIteratorAllocated = true ∧
        ∀ handler ∈ s.propertyList,
          findValueIfKeyMatch (env.valueCopied handler) deltaStr
            handler.property = none

/-- No request on the list has a callback. -/
def Unwatched (s : UIoTShadow) : Prop :=
  ∀ request ∈ s.requestList, request.callback = none

/-- The step calls no callback and allocates the iterators over the registered
properties it needs. -/
def Quiet (s : UIoTShadow) : Label → Prop
  | .request pJsonDoc sizeOfBuffer params env =>
      ∀ made, params = some made → ¬Leaks s pJsonDoc sizeOfBuffer made env
  | .downstream _ message env =>
      ∀ method, settlingMethod message = some method →
        QuietDesired s (controlDesired method (received message.payload)) env ∧
          (env.traverseIteratorAllocated = true → Unwatched s)
  | .getReply _ message env =>
      settlesGets message = true →
        QuietDesired s (parseShadowStateDesiredType (received message.payload))
            env ∧
          (env.traverseIteratorAllocated = true → Unwatched s)
  | .expire iteratorAllocated =>
      iteratorAllocated = true →
        ∀ request ∈ s.requestList,
          request.timer.hasExpired s.mqtt.clock = true →
            request.callback = none
  | _ => True

/-! ## Requests -/

theorem uiotShadowPublishOperationToCloud_locks (s : UIoTShadow)
    (method : Method) (pJsonDoc : List UInt8) (env : RequestEnv) :
    let next := (uiotShadowPublishOperationToCloud s method pJsonDoc env).1
    next.held = s.held ∧ next.callbackLocks = s.callbackLocks ∧
      next.propertyList = s.propertyList := by
  unfold uiotShadowPublishOperationToCloud
  dsimp only
  split
  · exact ⟨rfl, rfl, rfl⟩
  · split <;> exact ⟨rfl, rfl, rfl⟩

/-- What becomes of a publication does not depend on the list of requests. -/
theorem uiotShadowPublishOperationToCloud_queued (s : UIoTShadow)
    (requestList : List Request) (nextNumber : Nat) (method : Method)
    (pJsonDoc : List UInt8) (env : RequestEnv) :
    (uiotShadowPublishOperationToCloud { s with requestList, nextNumber } method
        pJsonDoc env).2 =
      (uiotShadowPublishOperationToCloud s method pJsonDoc env).2 := by
  unfold uiotShadowPublishOperationToCloud
  have topic : publishTopic { s with requestList, nextNumber } method =
    publishTopic s method := rfl
  rw [topic]
  dsimp only
  split
  · rfl
  · split <;> rfl

theorem foldl_updateProperty_locks (s : UIoTShadow) (params : RequestParams)
    (env : RequestEnv) (properties : List DeviceProperty) :
    let next := properties.foldl (fun s property =>
      shadowCommonUpdateProperty s property params.method
        (env.findAllocated property)) s
    next.held = s.held ∧ next.callbackLocks = s.callbackLocks := by
  induction properties generalizing s with
  | nil => exact ⟨rfl, rfl⟩
  | cons property properties inductionHypothesis =>
      obtain ⟨held, locks⟩ := inductionHypothesis
        (shadowCommonUpdateProperty s property params.method
          (env.findAllocated property))
      have kept : ∀ allocated,
          let next :=
            shadowCommonUpdateProperty s property params.method allocated
          next.held = s.held ∧ next.callbackLocks = s.callbackLocks := by
        intro allocated
        cases allocated <;> simp [shadowCommonUpdateProperty]
      rw [List.foldl_cons]
      exact ⟨held.trans (kept _).1, locks.trans (kept _).2⟩

/-- The registered properties stay locked where they cannot be gone through. -/
theorem uiotShadowUpdateProperty_locks (s : UIoTShadow) (params : RequestParams)
    (env : RequestEnv) :
    let next := (uiotShadowUpdateProperty s params env).1
    next.callbackLocks = s.callbackLocks ∧
      (next.held = s.held ↔
        ¬(params.method = .deleteAll ∧ s.propertyList ≠ [] ∧
          env.updateIteratorAllocated = false)) := by
  unfold uiotShadowUpdateProperty
  by_cases all : params.method = .deleteAll
  · rw [if_pos all]
    dsimp only [UIoTShadow.lock, UIoTShadow.unlock]
    by_cases empty : s.propertyList = []
    · simp [empty]
    · cases allocated : env.updateIteratorAllocated with
      | false => simp [empty, all]
      | true => simp [empty]
  · rw [if_neg all]
    split
    · simp [all]
    split
    · simp [all]
    · obtain ⟨held, locks⟩ := foldl_updateProperty_locks s params env
        params.propertyDeltaList.reverse
      exact ⟨locks, iff_of_true held fun leaks => all leaks.1⟩

theorem makeQueuedRequest_locks (s : UIoTShadow)
    (pJsonDoc : Option (List UInt8)) (sizeOfBuffer : Nat)
    (params : RequestParams) (env : RequestEnv) :
    let next := (makeQueuedRequest s pJsonDoc sizeOfBuffer params env).1
    next.callbackLocks = s.callbackLocks ∧
      (next.held = s.held ↔ ¬Leaks s pJsonDoc sizeOfBuffer params env) := by
  unfold makeQueuedRequest Leaks
  cases built : buildDocument pJsonDoc sizeOfBuffer params s.version
      env.contentIteratorAllocated with
  | error ret => simp
  | ok document =>
      obtain ⟨held, locks, properties⟩ :=
        uiotShadowPublishOperationToCloud_locks s params.method document env
      dsimp only
      by_cases success :
          (uiotShadowPublishOperationToCloud s params.method document env).2 =
            .successRet
      · rw [if_neg (not_not_intro success)]
        obtain ⟨kept, updates⟩ := uiotShadowUpdateProperty_locks
          (uiotShadowPublishOperationToCloud s params.method document env).1
          params env
        refine ⟨kept.trans locks, ?_⟩
        rw [held, properties] at updates
        rw [updates]
        simp [success]
      · rw [if_pos success]
        refine ⟨locks, iff_of_true held ?_⟩
        rintro ⟨-, -, -, other, same, published⟩
        cases same
        exact success published

/-- Making a request calls nothing; only `Leaks` leaves a mutex locked. -/
theorem uiotShadowMakeRequest_locks (s : UIoTShadow)
    (pJsonDoc : Option (List UInt8)) (sizeOfBuffer : Nat)
    (params : RequestParams) (env : RequestEnv) :
    let next :=
      (uiotShadowMakeRequest s pJsonDoc sizeOfBuffer (some params) env).1
    next.callbackLocks = s.callbackLocks ∧
      (next.held = s.held ↔ ¬Leaks s pJsonDoc sizeOfBuffer params env) := by
  rw [uiotShadowMakeRequest_eq]
  obtain ⟨locks, held⟩ := makeQueuedRequest_locks
    { s with
      requestList :=
        if Queues s env then s.requestList ++ [requestOf s params]
        else s.requestList
      nextNumber := s.nextNumber + 1 }
    pJsonDoc sizeOfBuffer params env
  refine ⟨locks, held.trans ?_⟩
  unfold Leaks
  simp only [uiotShadowPublishOperationToCloud_queued]

/-! ## Traversals -/

/-- A traversal leaves the mutexes as it found them, and holds that of the
requests at every call. -/
theorem traverseList_locks (s : UIoTShadow)
    (traverseHandle : UIoTShadow → Request → UIoTShadow)
    (outcome : Request → Option RequestAck)
    (settles : ∀ (s' : UIoTShadow) request, s'.mqtt = s.mqtt →
      s'.cloudRcvBuf = s.cloudRcvBuf →
      traverseHandle s' request =
        match outcome request with
        | none => s'
        | some ack => finish s' request ack) :
    (traverseList s true traverseHandle).held = s.held ∧
      (traverseList s true traverseHandle).callbackLocks =
        s.callbackLocks ++ List.replicate
          (s.requestList.countP fun request =>
            (outcome request).isSome && request.callback.isSome)
          (.request :: s.held) := by
  have loop : ∀ (requests : List Request) (s' : UIoTShadow),
      s'.mqtt = s.mqtt → s'.cloudRcvBuf = s.cloudRcvBuf →
        (requests.foldl traverseHandle s').held = s'.held ∧
          (requests.foldl traverseHandle s').callbackLocks =
            s'.callbackLocks ++ List.replicate
              (requests.countP fun request =>
                (outcome request).isSome && request.callback.isSome)
              s'.held := by
    intro requests
    induction requests with
    | nil => exact fun _ _ _ => ⟨rfl, (List.append_nil _).symm⟩
    | cons request requests inductionHypothesis =>
        intro s' mqtt buffer
        rw [List.foldl_cons, settles s' request mqtt buffer]
        cases settled : outcome request with
        | none =>
            rw [List.countP_cons_of_neg (by simp [settled])]
            exact inductionHypothesis s' mqtt buffer
        | some ack =>
            dsimp only
            have after := inductionHypothesis (finish s' request ack)
            unfold finish at after ⊢
            cases called : request.callback with
            | none =>
                rw [List.countP_cons_of_neg (by simp [called])]
                rw [called] at after
                exact after mqtt buffer
            | some callback =>
                rw [List.countP_cons_of_pos (by simp [settled, called])]
                rw [called] at after
                obtain ⟨held, locks⟩ := after mqtt buffer
                refine ⟨held, locks.trans ?_⟩
                rw [List.replicate_succ]
                exact List.append_assoc ..
  unfold traverseList
  dsimp only
  split
  · rename_i empty
    have empty : s.requestList = [] := List.length_eq_zero_iff.mp empty
    simp [empty]
  · rw [if_neg (by decide)]
    obtain ⟨held, locks⟩ :=
      loop s.requestList.reverse (s.lock .request) rfl rfl
    rw [List.countP_reverse] at locks
    have released := congrArg (fun held => held.erase Mutex.request) held
    exact ⟨released.trans (List.erase_cons_head ..), locks⟩

theorem traverseList_unallocated_locks (s : UIoTShadow)
    (traverseHandle : UIoTShadow → Request → UIoTShadow) :
    (traverseList s false traverseHandle).held = s.held ∧
      (traverseList s false traverseHandle).callbackLocks =
        s.callbackLocks := by
  unfold traverseList
  dsimp only
  split
  · simp
  · simp

/-! ## Properties -/

/-- The callbacks of the properties are called with the mutexes held before. -/
theorem foldl_handleProperty_locks (deltaStr : List UInt8)
    (env : MessageEnv) (handlers : List PropertyHandler)
    (state : UIoTShadow × Option RequestParams × List PropertyHandler) :
    let next := handlers.foldl (handleProperty deltaStr env) state
    next.1.held = state.1.held ∧
      next.1.callbackLocks = state.1.callbackLocks ++ List.replicate
        (handlers.countP fun handler =>
          (findValueIfKeyMatch (env.valueCopied handler) deltaStr
            handler.property).isSome)
        state.1.held := by
  induction handlers generalizing state with
  | nil => exact ⟨rfl, (List.append_nil _).symm⟩
  | cons handler handlers inductionHypothesis =>
      obtain ⟨s, params, done⟩ := state
      rw [List.foldl_cons]
      have after := inductionHypothesis
        (handleProperty deltaStr env (s, params, done) handler)
      unfold handleProperty at after ⊢
      cases found : findValueIfKeyMatch (env.valueCopied handler) deltaStr
        handler.property with
      | none =>
          rw [List.countP_cons_of_neg (by simp [found])]
          rw [found] at after
          exact after
      | some value =>
          rw [List.countP_cons_of_pos (by simp [found])]
          rw [found] at after
          obtain ⟨held, locks⟩ := after
          refine ⟨held, locks.trans ?_⟩
          rw [List.replicate_succ]
          exact List.append_assoc ..

/-- Handling the desired state calls the callback of every property it has a
value for with the mutex of the properties locked, and leaves it locked where
the properties cannot be gone through. -/
theorem handleDelta_locks (s : UIoTShadow) (deltaStr : List UInt8)
    (env : MessageEnv) :
    if s.propertyList ≠ [] ∧ env.propertyIteratorAllocated = false then
      (handleDelta s deltaStr env).held = .property :: s.held ∧
        (handleDelta s deltaStr env).callbackLocks = s.callbackLocks
    else
      (handleDelta s deltaStr env).held = s.held ∧
        (handleDelta s deltaStr env).callbackLocks =
          s.callbackLocks ++ List.replicate
            (s.propertyList.countP fun handler =>
              (findValueIfKeyMatch (env.valueCopied handler) deltaStr
                handler.property).isSome)
            (.property :: s.held) := by
  unfold handleDelta
  dsimp only
  have locked : (s.lock .property).propertyList = s.propertyList := rfl
  by_cases missing :
      s.propertyList ≠ [] ∧ env.propertyIteratorAllocated = false
  · rw [if_pos missing, if_pos (by simpa using missing)]
    exact ⟨rfl, rfl⟩
  rw [if_neg missing, if_neg (by simpa using missing), locked]
  obtain ⟨deltas, next, propertyList, folds, -, -⟩ :=
    foldl_handleProperty deltaStr env s.propertyList.reverse []
      (s.lock .property) (replyParams s.cloudSendMethod) env.paramsAllocated
  obtain ⟨held, locks⟩ :=
    foldl_handleProperty_locks deltaStr env s.propertyList.reverse
      (s.lock .property,
        if env.paramsAllocated then some (replyParams s.cloudSendMethod)
        else none, [])
  rw [folds] at held locks ⊢
  rw [List.countP_reverse] at locks
  dsimp only at held locks ⊢
  have released : ({ next with propertyList }.unlock .property).held = s.held :=
    (congrArg (fun held => held.erase Mutex.property) held).trans
      (List.erase_cons_head ..)
  cases env.paramsAllocated with
  | false => exact ⟨released, locks⟩
  | true =>
      obtain ⟨kept, leaks⟩ := uiotShadowMakeRequest_locks
        ({ next with propertyList }.unlock .property) (some [])
        (uiotMqttRxBufLen + 1)
        { replyParams s.cloudSendMethod with propertyDeltaList := deltas }
        env.reply
      refine ⟨(leaks.mpr fun leak => ?_).trans released, kept.trans locks⟩
      have all := leak.1
      unfold replyParams at all
      cases method : s.cloudSendMethod <;> simp [method] at all

/-- The desired state of a message is quiet exactly where handling it calls
nothing and leaves the mutexes as they were. -/
theorem handleDesired_locks (s : UIoTShadow) (desired : Option (List UInt8))
    (env : MessageEnv) :
    ∃ count, (handleDesired s desired env).callbackLocks =
        s.callbackLocks ++ List.replicate count (.property :: s.held) ∧
      (QuietDesired s desired env ↔
        count = 0 ∧ (handleDesired s desired env).held = s.held) := by
  unfold handleDesired QuietDesired
  cases desired with
  | none => exact ⟨0, (List.append_nil _).symm, by simp⟩
  | some deltaStr =>
      dsimp only
      by_cases long : deltaStr.length > 2
      · rw [if_pos long]
        have locks := handleDelta_locks s deltaStr env
        by_cases missing :
            s.propertyList ≠ [] ∧ env.propertyIteratorAllocated = false
        · rw [if_pos missing] at locks
          refine ⟨0, locks.2.trans (List.append_nil _).symm, ?_⟩
          rw [locks.1]
          refine iff_of_false (fun quiet => ?_) (by simp)
          have allocated := (quiet deltaStr rfl long missing.1).1
          exact absurd (missing.2.symm.trans allocated) (by decide)
        · rw [if_neg missing] at locks
          refine ⟨_, locks.2, ?_⟩
          rw [List.countP_eq_zero, and_iff_left locks.1]
          constructor
          · intro quiet handler mem
            have found := (quiet deltaStr rfl long (List.ne_nil_of_mem mem)).2
            simp [found handler mem]
          · intro unmatched other same _ nonempty
            obtain rfl := Option.some.inj same
            refine ⟨?_, fun handler mem => by simpa using unmatched handler mem⟩
            simpa [nonempty] using missing
      · rw [if_neg long]
        refine ⟨0, (List.append_nil _).symm, ?_⟩
        refine iff_of_true (fun other same longer => ?_) ⟨rfl, rfl⟩
        obtain rfl := Option.some.inj same
        exact absurd longer long

/-! ## Messages -/

/-- The request that answers is not watched. -/
theorem countP_pending (s : UIoTShadow) (desired : Option (List UInt8))
    (env : MessageEnv) :
    (pending s desired env).countP (·.callback.isSome) =
      s.requestList.countP (·.callback.isSome) := by
  have unwatched : (replyRequest s).callback = none := rfl
  unfold pending
  rw [List.countP_append]
  split
  · simp [unwatched]
  · rfl

/-- A message that makes the handler go through the requests is handled with
discipline exactly where its desired state is quiet and, if the iterator can be
allocated, no request is watched. -/
theorem traverseList_handleDesired_locks (s : UIoTShadow)
    (desired : Option (List UInt8)) (env : MessageEnv) (method : List UInt8) :
    let next := traverseList (handleDesired s desired env)
      env.traverseIteratorAllocated (handleRequestCallback method)
    ((∀ locks ∈ next.callbackLocks.drop s.callbackLocks.length, locks = []) ∧
        next.held = s.held) ↔
      QuietDesired s desired env ∧
        (env.traverseIteratorAllocated = true → Unwatched s) := by
  obtain ⟨count, behind, quiet⟩ := handleDesired_locks s desired env
  have listed : (handleDesired s desired env).requestList =
      pending s desired env :=
    (congrArg Books.requestList (handleDesired_books s desired env)).trans
      (booksBehindDelta_eq s s.version s.cloudRcvBuf desired env).1
  rw [quiet]
  have watched := countP_pending s desired env
  rw [← listed] at watched
  generalize handleDesired s desired env = middle at behind watched ⊢
  dsimp only
  cases env.traverseIteratorAllocated with
  | false =>
      obtain ⟨held, locks⟩ := traverseList_unallocated_locks middle
        (handleRequestCallback method)
      rw [held, locks, behind, List.drop_left]
      simp [List.mem_replicate]
  | true =>
      obtain ⟨held, locks⟩ := traverseList_locks middle
        (handleRequestCallback method)
        (fun _ => some (ackOf middle.cloudRcvBuf method))
        fun s' request mqtt buffer => by
          rw [handleRequestCallback, buffer]
      rw [held, locks, behind, List.append_assoc, List.drop_left]
      simp only [Option.isSome_some, Bool.true_and, watched]
      have unwatched : Unwatched s ↔
          s.requestList.countP (·.callback.isSome) = 0 := by
        simp [Unwatched, List.countP_eq_zero]
      rw [unwatched]
      simp only [List.mem_append, List.mem_replicate]
      constructor
      · rintro ⟨all, same⟩
        refine ⟨⟨?_, same⟩, fun _ => ?_⟩
        · by_contra called
          exact absurd (all _ (.inl ⟨called, rfl⟩)) (by simp)
        · by_contra called
          exact absurd (all _ (.inr ⟨called, rfl⟩)) (by simp)
      · rintro ⟨⟨uncalled, same⟩, quiet⟩
        refine ⟨fun locks mem => ?_, same⟩
        rcases mem with called | called
        · exact absurd uncalled called.1
        · exact absurd (quiet trivial) called.1

/-! ## Steps -/

/-- A step that calls nothing is disciplined if it leaves the mutexes as they
were. -/
theorem lockDisciplined_iff_held {s : UIoTShadow} {label : Label}
    (nothing : (s.step label).callbackLocks = s.callbackLocks) :
    LockDisciplined s label ↔ (s.step label).held = s.held := by
  unfold LockDisciplined
  rw [nothing, List.drop_length]
  simp

theorem request_lockDisciplined_iff (s : UIoTShadow)
    (pJsonDoc : Option (List UInt8)) (sizeOfBuffer : Nat)
    (params : Option RequestParams) (env : RequestEnv) :
    LockDisciplined s (.request pJsonDoc sizeOfBuffer params env) ↔
      Quiet s (.request pJsonDoc sizeOfBuffer params env) := by
  cases params with
  | none =>
      refine iff_of_true ?_ (fun _ same => nomatch same)
      exact (lockDisciplined_iff_held rfl).mpr rfl
  | some params =>
      obtain ⟨locks, held⟩ :=
        uiotShadowMakeRequest_locks s pJsonDoc sizeOfBuffer params env
      have unchanged : LockDisciplined s
          (.request pJsonDoc sizeOfBuffer (some params) env) ↔ _ :=
        lockDisciplined_iff_held locks
      refine unchanged.trans (held.trans ?_)
      constructor
      · intro sound made same
        obtain rfl := Option.some.inj same
        exact sound
      · exact fun quiet => quiet params rfl

theorem downstream_lockDisciplined_iff (s : UIoTShadow)
    (answers : Option Nat) (message : Message) (env : MessageEnv) :
    LockDisciplined s (.downstream answers message env) ↔
      Quiet s (.downstream answers message env) := by
  obtain ⟨version, cloudRcvBuf, handled⟩ :=
    topicRequestResultHandler_eq s message env
  unfold LockDisciplined
  rw [UIoTShadow.step, handled]
  cases settling : settlingMethod message with
  | none =>
      refine iff_of_true (by simp) fun method same => ?_
      exact absurd (settling.symm.trans same) (by simp)
  | some method =>
      refine (traverseList_handleDesired_locks
        { s with version, cloudRcvBuf := received message.payload }
        (controlDesired method (received message.payload)) env
        method).trans ?_
      constructor
      · intro quiet other same
        obtain rfl := Option.some.inj (settling.symm.trans same)
        exact quiet
      · exact fun quiet => quiet method settling

theorem getReply_lockDisciplined_iff (s : UIoTShadow)
    (answers : Option Nat) (message : Message) (env : MessageEnv) :
    LockDisciplined s (.getReply answers message env) ↔
      Quiet s (.getReply answers message env) := by
  obtain ⟨version, cloudRcvBuf, handled⟩ := topicSyncHandler_eq s message env
  unfold LockDisciplined
  rw [UIoTShadow.step, handled]
  cases settling : settlesGets message with
  | false =>
      refine iff_of_true (by simp) fun settles => ?_
      exact absurd (settling.symm.trans settles) (by decide)
  | true =>
      refine (traverseList_handleDesired_locks
        { s with version, cloudRcvBuf := received message.payload }
        (parseShadowStateDesiredType (received message.payload)) env
        methodGetReply).trans ?_
      exact ⟨fun quiet _ => quiet, fun quiet => quiet settling⟩

theorem expire_lockDisciplined_iff (s : UIoTShadow)
    (iteratorAllocated : Bool) :
    LockDisciplined s (.expire iteratorAllocated) ↔
      Quiet s (.expire iteratorAllocated) := by
  unfold LockDisciplined
  rw [UIoTShadow.step, handleExpiredRequest]
  cases iteratorAllocated with
  | false =>
      obtain ⟨held, locks⟩ := traverseList_unallocated_locks s
        handleExpiredRequestCallback
      rw [held, locks]
      exact iff_of_true (by simp) fun allocated =>
        absurd allocated Bool.false_ne_true
  | true =>
      obtain ⟨held, locks⟩ := traverseList_locks s handleExpiredRequestCallback
        (fun request =>
          if request.timer.hasExpired s.mqtt.clock then some .timeout else none)
        fun s' request mqtt buffer => by
          rw [handleExpiredRequestCallback, mqtt]
          split <;> rfl
      rw [held, locks, List.drop_left, and_iff_left rfl]
      simp only [List.mem_replicate, ne_eq, List.countP_eq_zero]
      constructor
      · intro uncalled _ request mem expired
        by_contra watched
        refine absurd (uncalled _ ⟨fun all => ?_, rfl⟩) (by simp)
        exact watched (by simpa [expired] using all request mem)
      · rintro quiet locks ⟨called, -⟩
        refine absurd (fun request mem => ?_) called
        by_cases expired : request.timer.hasExpired s.mqtt.clock = true
        · simp [quiet rfl request mem expired]
        · simp [expired]

/-- A step is disciplined exactly where it calls no callback and allocates the
iterators over the properties it needs. -/
theorem lockDisciplined_iff (s : UIoTShadow)
    (label : Label) : LockDisciplined s label ↔ Quiet s label := by
  cases label with
  | request pJsonDoc sizeOfBuffer params env =>
      exact request_lockDisciplined_iff ..
  | downstream answers message env =>
      exact downstream_lockDisciplined_iff ..
  | getReply answers message env => exact getReply_lockDisciplined_iff ..
  | expire iteratorAllocated => exact expire_lockDisciplined_iff ..
  | properties propertyList =>
      exact iff_of_true ((lockDisciplined_iff_held rfl).mpr rfl) trivial
  | elsewhere mqtt =>
      exact iff_of_true ((lockDisciplined_iff_held rfl).mpr rfl) trivial

/-! ## Runs -/

/-- In every run the steps call their callbacks without a mutex and leave both
mutexes as they found them exactly where no step calls a callback, nor lacks an
iterator over the registered properties. -/
theorem run_lockDisciplined_iff (mqtt : Mqtt.Client)
    (productSn deviceSn : CString) (labels : List Label) :
    Along UIoTShadow.step LockDisciplined
        (uiotShadowInit mqtt productSn deviceSn) labels ↔
      Along UIoTShadow.step Quiet
        (uiotShadowInit mqtt productSn deviceSn) labels :=
  Along.iff_of_invariant (fun _ => True)
    (fun s label _ => lockDisciplined_iff s label)
    (fun _ _ _ _ => trivial) trivial labels

/-- A get-reply calls the callback of the request with the mutex of the requests
locked; and a request to delete everything that cannot allocate an iterator
over the properties leaves their mutex locked. -/
theorem run_lockDisciplined_broken :
    ¬Along UIoTShadow.step LockDisciplined (sampleShadow true)
      [sampleRequest, sampleDownstream 0 0] ∧
    ¬Along UIoTShadow.step LockDisciplined (sampleShadow true)
      [.properties [⟨⟨⟨ascii "k", by decide⟩, none⟩, 1⟩],
        .request (some []) uiotMqttTxBufLen (some ⟨.deleteAll, [], 5, none, 0⟩)
          { sampleEnv with updateIteratorAllocated := false }] := by
  constructor
  · intro along
    exact absurd (along.2.1.1 [.request] (by decide +kernel)) (by decide)
  · intro along
    exact absurd along.2.1.2 (by decide +kernel)

end Shadow
end UIoT
