import UIoT.Shadow.Books

/-!
# Requests as a whole

`uiot_shadow_make_request` queues a request before its document is built and
published, and overwrites what queueing answered.  So it does all or nothing
exactly where both parts end alike: the request is queued and delivered, or
neither.
-/

namespace UIoT
namespace Shadow

open Machine (run)

/-! ## Numbers of requests -/

namespace Books

/-- Every request on the list or told about has been made before. -/
def Fresh (b : Books) : Prop :=
  (∀ request ∈ b.requestList, request.number < b.nextNumber) ∧
    ∀ call ∈ b.requestCalls, call.1.number < b.nextNumber

/-- A request that was made is neither on the list nor told about. -/
def Absent (number : Nat) (b : Books) : Prop :=
  number < b.nextNumber ∧
    (∀ request ∈ b.requestList, request.number ≠ number) ∧
    ∀ call ∈ b.requestCalls, call.1.number ≠ number

theorem Fresh.make {b : Books} (fresh : b.Fresh) {request : Request}
    (number : request.number = b.nextNumber) (queued : Bool) :
    (b.make request queued).Fresh := by
  constructor
  · intro other mem
    unfold Books.make at mem ⊢
    dsimp only at mem ⊢
    split at mem
    · rcases List.mem_append.mp mem with before | this
      · exact Nat.lt_succ_of_lt (fresh.1 other before)
      · obtain rfl := List.mem_singleton.mp this
        exact number ▸ Nat.lt_succ_self _
    · exact Nat.lt_succ_of_lt (fresh.1 other mem)
  · exact fun call mem => Nat.lt_succ_of_lt (fresh.2 call mem)

theorem Fresh.settleAll {b : Books} (fresh : b.Fresh)
    (outcome : Request → Option RequestAck) : (b.settleAll outcome).Fresh := by
  obtain ⟨sublist, calls, number⟩ := settleAll_members outcome b
  unfold Fresh
  rw [number]
  refine ⟨fun request mem => fresh.1 request (sublist.subset mem), ?_⟩
  intro call mem
  rcases calls call mem with told | listed
  · exact fresh.2 call told
  · exact fresh.1 call.1 listed

theorem Absent.make {b : Books} {number : Nat} (absent : b.Absent number)
    {request : Request} (next : request.number = b.nextNumber)
    (queued : Bool) : (b.make request queued).Absent number := by
  refine ⟨Nat.lt_succ_of_lt absent.1, ?_, absent.2.2⟩
  intro other mem
  unfold Books.make at mem
  dsimp only at mem
  split at mem
  · rcases List.mem_append.mp mem with before | this
    · exact absent.2.1 other before
    · obtain rfl := List.mem_singleton.mp this
      rw [next]
      exact (Nat.ne_of_lt absent.1).symm
  · exact absent.2.1 other mem

theorem Absent.settleAll {b : Books} {number : Nat} (absent : b.Absent number)
    (outcome : Request → Option RequestAck) :
    (b.settleAll outcome).Absent number := by
  obtain ⟨sublist, calls, next⟩ := settleAll_members outcome b
  unfold Absent
  rw [next]
  refine ⟨absent.1, fun request mem => absent.2.1 request (sublist.subset mem),
    ?_⟩
  intro call mem
  rcases calls call mem with told | listed
  · exact absent.2.2 call told
  · exact absent.2.1 call.1 listed

end Books

/-- In every run all requests have been made before. -/
theorem run_fresh (mqtt : Mqtt.Client) (productSn deviceSn : CString)
    (labels : List Label) :
    (run UIoTShadow.step (uiotShadowInit mqtt productSn deviceSn)
      labels).books.Fresh := by
  apply Machine.run_preserves fun s : UIoTShadow => s.books.Fresh
  · exact step_preserves (fun _ _ _ fresh => fresh)
      (fun _ _ _ number fresh => fresh.make number _)
      (fun _ _ fresh => fresh.settleAll _)
  · exact ⟨by simp [UIoTShadow.books, uiotShadowInit],
      by simp [UIoTShadow.books, uiotShadowInit]⟩

/-- The callback of a request is never called, however the client goes on. -/
def NeverCalled (s : UIoTShadow) (number : Nat) : Prop :=
  ∀ labels, ∀ call ∈ (run UIoTShadow.step s labels).books.requestCalls,
    call.1.number ≠ number

theorem neverCalled_of_absent {s : UIoTShadow} {number : Nat}
    (absent : s.books.Absent number) : NeverCalled s number := by
  intro labels
  have kept : (run UIoTShadow.step s labels).books.Absent number := by
    apply Machine.run_preserves fun s : UIoTShadow => s.books.Absent number
    · exact step_preserves (fun _ _ _ absent => absent)
        (fun _ _ _ next absent => absent.make next _)
        (fun _ _ absent => absent.settleAll _)
    · exact absent
  exact kept.2.2

/-! ## All or nothing -/

/-- The document of the request. -/
def documentOf (s : UIoTShadow) (pJsonDoc : Option (List UInt8))
    (sizeOfBuffer : Nat) (params : RequestParams) (env : RequestEnv) :
    Except IoTError (List UInt8) :=
  buildDocument pJsonDoc sizeOfBuffer params s.version
    env.contentIteratorAllocated

/-- The document of the request is built, and the MQTT client takes it. -/
def Publishes (s : UIoTShadow) (pJsonDoc : Option (List UInt8))
    (sizeOfBuffer : Nat) (params : RequestParams) (env : RequestEnv) : Prop :=
  ∃ document, documentOf s pJsonDoc sizeOfBuffer params env = .ok document ∧
    (uiotShadowPublishOperationToCloud s params.method document env).2 =
      .successRet

/-- The document of the request is published, and the iterator over the
properties to update can be allocated. -/
def Delivers (s : UIoTShadow) (pJsonDoc : Option (List UInt8))
    (sizeOfBuffer : Nat) (params : RequestParams) (env : RequestEnv) : Prop :=
  Publishes s pJsonDoc sizeOfBuffer params env ∧
    (uiotShadowUpdateProperty s params env).2 = .successRet

/-- What the claim of success and the report of an error stand for. -/
def AllOrNothing (s : UIoTShadow) (pJsonDoc : Option (List UInt8))
    (sizeOfBuffer : Nat) (params : RequestParams) (env : RequestEnv) : Prop :=
  let result := uiotShadowMakeRequest s pJsonDoc sizeOfBuffer (some params) env
  (result.2 = .successRet ↔
    result.1.requestList = s.requestList ++ [requestOf s params] ∧
      ∃ topic document,
        documentOf s pJsonDoc sizeOfBuffer params env = .ok document ∧
          result.1.published = s.published ++ [⟨topic, .ofArray document⟩]) ∧
  (result.2 ≠ .successRet →
    result.1.requestList = s.requestList ∧ NeverCalled result.1 s.nextNumber)

/-! ## What is published -/

/-- What `uiot_shadow_publish_operation_to_cloud` answers depends on the MQTT
client and the names of the device only. -/
theorem publishOperation_ret {s : UIoTShadow} (s' : UIoTShadow)
    (mqtt : s'.mqtt = s.mqtt) (productSn : s'.productSn = s.productSn)
    (deviceSn : s'.deviceSn = s.deviceSn) (method : Method)
    (document : List UInt8) (env : RequestEnv) :
    (uiotShadowPublishOperationToCloud s' method document env).2 =
      (uiotShadowPublishOperationToCloud s method document env).2 := by
  have topic : publishTopic s' method = publishTopic s method := by
    unfold publishTopic
    rw [productSn, deviceSn]
  unfold uiotShadowPublishOperationToCloud
  dsimp only
  rw [topic, mqtt]
  split
  · rfl
  · split <;> rfl

/-- A document is recorded exactly where it is reported published. -/
theorem publishOperation_published (s : UIoTShadow) (method : Method)
    (document : List UInt8) (env : RequestEnv) :
    let (after, ret) := uiotShadowPublishOperationToCloud s method document env
    after.propertyList = s.propertyList ∧
      (ret = .successRet →
        ∃ topic, after.published = s.published ++ [⟨topic, .ofArray document⟩]) ∧
      (ret ≠ .successRet → after.published = s.published) := by
  unfold uiotShadowPublishOperationToCloud
  dsimp only
  split
  · exact ⟨rfl, fun success => (by cases success), fun _ => rfl⟩
  split
  · exact ⟨rfl, fun _ => ⟨_, rfl⟩, fun failed => absurd rfl failed⟩
  · exact ⟨rfl, fun success => (by cases success), fun _ => rfl⟩

theorem foldl_updateProperty_published (s : UIoTShadow) (params : RequestParams)
    (env : RequestEnv) (properties : List DeviceProperty) :
    (properties.foldl (fun s property =>
      shadowCommonUpdateProperty s property params.method
        (env.findAllocated property)) s).published = s.published := by
  induction properties generalizing s with
  | nil => rfl
  | cons property properties inductionHypothesis =>
      rw [List.foldl_cons, inductionHypothesis]
      unfold shadowCommonUpdateProperty
      dsimp only
      split <;> rfl

theorem uiotShadowUpdateProperty_published (s : UIoTShadow)
    (params : RequestParams) (env : RequestEnv) :
    (uiotShadowUpdateProperty s params env).1.published = s.published := by
  unfold uiotShadowUpdateProperty
  split
  · dsimp only
    split
    · rfl
    · split <;> rfl
  split
  · rfl
  split
  · rfl
  · exact foldl_updateProperty_published ..

/-- What `uiot_shadow_update_property` answers depends on the registered
properties only. -/
theorem uiotShadowUpdateProperty_ret {s s' : UIoTShadow}
    (same : s'.propertyList = s.propertyList) (params : RequestParams)
    (env : RequestEnv) :
    (uiotShadowUpdateProperty s' params env).2 =
      (uiotShadowUpdateProperty s params env).2 := by
  unfold uiotShadowUpdateProperty
  dsimp only [UIoTShadow.lock]
  rw [same]
  split
  · split
    · rfl
    · split <;> rfl
  split
  · rfl
  split <;> rfl

/-- A step that fails to build the document answers an error. -/
theorem buildDocument_error {pJsonDoc : Option (List UInt8)}
    {sizeOfBuffer : Nat} {params : RequestParams} {version : UInt32}
    {iteratorAllocated : Bool} {ret : IoTError}
    (failed : buildDocument pJsonDoc sizeOfBuffer params version
      iteratorAllocated = .error ret) : ret ≠ .successRet := by
  unfold buildDocument at failed
  split at failed
  · cases failed
    exact fun success => nomatch success
  split at failed
  · split at failed
    · split at failed
      · cases failed
      · rename_i other _
        cases failed
        rintro rfl
        exact other rfl
    · rename_i other _
      cases failed
      rintro rfl
      exact other rfl
  · rename_i other _
    cases failed
    rintro rfl
    exact other rfl

/-- A queued request succeeds where it is delivered, and its document is
recorded where it is published. -/
theorem makeQueuedRequest_outcome (s : UIoTShadow) (requestList : List Request)
    (nextNumber : Nat) (pJsonDoc : Option (List UInt8)) (sizeOfBuffer : Nat)
    (params : RequestParams) (env : RequestEnv) :
    let (after, ret) := makeQueuedRequest
      { s with requestList, nextNumber } pJsonDoc sizeOfBuffer params env
    (ret = .successRet ↔ Delivers s pJsonDoc sizeOfBuffer params env) ∧
      (Publishes s pJsonDoc sizeOfBuffer params env ↔
        ∃ topic document,
          documentOf s pJsonDoc sizeOfBuffer params env = .ok document ∧
            after.published = s.published ++ [⟨topic, .ofArray document⟩]) := by
  unfold makeQueuedRequest Delivers Publishes
  dsimp only
  cases built : documentOf s pJsonDoc sizeOfBuffer params env with
  | error ret =>
      have failed : buildDocument pJsonDoc sizeOfBuffer params s.version
          env.contentIteratorAllocated = .error ret := built
      rw [failed]
      simp [buildDocument_error failed]
  | ok document =>
      have finished : buildDocument pJsonDoc sizeOfBuffer params s.version
          env.contentIteratorAllocated = .ok document := built
      rw [finished]
      dsimp only
      have answer := publishOperation_ret (s := s)
        { s with requestList, nextNumber } rfl rfl rfl params.method document
        env
      have recorded := publishOperation_published
        { s with requestList, nextNumber } params.method document env
      generalize uiotShadowPublishOperationToCloud
        { s with requestList, nextNumber } params.method document env =
        published at answer recorded ⊢
      obtain ⟨next, ret⟩ := published
      obtain ⟨properties, succeeds, fails⟩ := recorded
      have accepted : (∃ other,
          (Except.ok document : Except IoTError (List UInt8)) = .ok other ∧
            (uiotShadowPublishOperationToCloud s params.method other env).2 =
              .successRet) ↔ ret = .successRet := by
        constructor
        · rintro ⟨other, same, success⟩
          cases same
          exact answer.trans success
        · exact fun success => ⟨document, rfl, answer.symm.trans success⟩
      rw [accepted]
      have kept : next.propertyList = s.propertyList := properties
      by_cases success : ret = .successRet
      · obtain ⟨topic, recorded⟩ := succeeds success
        rw [if_neg (not_not_intro success), uiotShadowUpdateProperty_ret kept,
          uiotShadowUpdateProperty_published]
        exact ⟨by simp [success], fun _ => ⟨topic, document, rfl, recorded⟩,
          fun _ => success⟩
      · have recorded : next.published = s.published := fails success
        rw [if_pos success]
        refine ⟨by simp [success], fun published => absurd published success, ?_⟩
        rintro ⟨topic, other, -, more⟩
        rw [recorded] at more
        simp at more

/-- A request is queued where there is room for it. -/
theorem uiotShadowMakeRequest_requestList (s : UIoTShadow)
    (pJsonDoc : Option (List UInt8)) (sizeOfBuffer : Nat)
    (params : RequestParams) (env : RequestEnv) :
    (uiotShadowMakeRequest s pJsonDoc sizeOfBuffer (some params)
        env).1.requestList =
      if Queues s env then s.requestList ++ [requestOf s params]
      else s.requestList :=
  congrArg Books.requestList (uiotShadowMakeRequest_books ..)

/-- A request that is not queued is absent from then on. -/
theorem absent_of_unqueued {s : UIoTShadow} (fresh : s.books.Fresh)
    (pJsonDoc : Option (List UInt8)) (sizeOfBuffer : Nat)
    (params : RequestParams) (env : RequestEnv)
    (full : Queues s env = false) :
    (uiotShadowMakeRequest s pJsonDoc sizeOfBuffer (some params)
      env).1.books.Absent s.nextNumber := by
  rw [uiotShadowMakeRequest_books, full]
  exact ⟨Nat.lt_succ_self _,
    fun request mem => Nat.ne_of_lt (fresh.1 request mem),
    fun call mem => Nat.ne_of_lt (fresh.2 call mem)⟩

/-- A request is made as a whole exactly where it is queued if and only if it is
delivered. -/
theorem allOrNothing_iff {s : UIoTShadow} (fresh : s.books.Fresh)
    (pJsonDoc : Option (List UInt8)) (sizeOfBuffer : Nat)
    (params : RequestParams) (env : RequestEnv) :
    AllOrNothing s pJsonDoc sizeOfBuffer params env ↔
      (Queues s env = true ↔ Delivers s pJsonDoc sizeOfBuffer params env) := by
  have list := uiotShadowMakeRequest_requestList s pJsonDoc sizeOfBuffer params
    env
  have unqueued := absent_of_unqueued fresh pJsonDoc sizeOfBuffer params
    env
  have outcome :
      let (after, ret) :=
        uiotShadowMakeRequest s pJsonDoc sizeOfBuffer (some params) env
      (ret = .successRet ↔ Delivers s pJsonDoc sizeOfBuffer params env) ∧
        (Publishes s pJsonDoc sizeOfBuffer params env ↔
          ∃ topic document,
            documentOf s pJsonDoc sizeOfBuffer params env = .ok document ∧
              after.published =
                s.published ++ [⟨topic, .ofArray document⟩]) := by
    rw [uiotShadowMakeRequest_eq]
    exact makeQueuedRequest_outcome s _ _ pJsonDoc sizeOfBuffer params env
  unfold AllOrNothing
  generalize uiotShadowMakeRequest s pJsonDoc sizeOfBuffer (some params) env =
    result at list unqueued outcome ⊢
  obtain ⟨after, ret⟩ := result
  dsimp only at list unqueued outcome ⊢
  obtain ⟨succeeds, published⟩ := outcome
  rw [succeeds, ← published, list]
  have delivered : Delivers s pJsonDoc sizeOfBuffer params env →
      Publishes s pJsonDoc sizeOfBuffer params env := And.left
  cases queues : Queues s env with
  | true =>
      rw [if_pos rfl]
      constructor
      · rintro ⟨-, fails⟩
        refine ⟨fun _ => ?_, fun _ => rfl⟩
        by_contra undelivered
        have same := (fails fun success => undelivered (succeeds.mp success)).1
        simp at same
      · intro ⟨both, _⟩
        have success := both rfl
        exact ⟨⟨fun _ => ⟨rfl, delivered success⟩, fun _ => success⟩,
          fun failed => absurd (succeeds.mpr success) failed⟩
  | false =>
      rw [if_neg (by decide)]
      have absent := neverCalled_of_absent (unqueued queues)
      constructor
      · rintro ⟨both, -⟩
        refine ⟨fun impossible => (by cases impossible), fun success => ?_⟩
        have same := (both.mp success).1
        simp at same
      · intro ⟨_, both⟩
        refine ⟨⟨fun success => (by cases both success), ?_⟩,
          fun _ => ⟨rfl, absent⟩⟩
        rintro ⟨same, -⟩
        simp at same

/-- In every run a request is made as a whole exactly where it is queued if and
only if it is delivered. -/
theorem run_allOrNothing_iff (mqtt : Mqtt.Client) (productSn deviceSn : CString)
    (labels : List Label) (pJsonDoc : Option (List UInt8)) (sizeOfBuffer : Nat)
    (params : RequestParams) (env : RequestEnv) :
    let s := run UIoTShadow.step (uiotShadowInit mqtt productSn deviceSn) labels
    AllOrNothing s pJsonDoc sizeOfBuffer params env ↔
      (Queues s env = true ↔ Delivers s pJsonDoc sizeOfBuffer params env) :=
  allOrNothing_iff (run_fresh mqtt productSn deviceSn labels) ..

/-! ## Samples -/

/-- A new client, with the given state of its connection. -/
def sampleMqtt (isConnected : Bool) : Mqtt.Client :=
  { Mqtt.uiotMqttInit ⟨2000, false⟩ 0 with isConnected }

/-- A new shadow client. -/
def sampleShadow (isConnected : Bool) : UIoTShadow :=
  uiotShadowInit (sampleMqtt isConnected) ⟨ascii "p", by decide⟩
    ⟨ascii "d", by decide⟩

/-- The parameters of `IOT_Shadow_Get_Sync`. -/
def sampleParams : RequestParams := ⟨.get, [], 5, some 1, 0⟩

/-- Surroundings in which nothing fails. -/
def sampleEnv : RequestEnv :=
  { requestAllocated := true
    nodeAllocated := true
    contentIteratorAllocated := true
    updateIteratorAllocated := true
    findAllocated := fun _ => true
    publish := ⟨true, true, true, [.accepted 2048], .qos0⟩ }

/-- Making the sample request. -/
def sampleRequest : Label :=
  .request (some []) uiotMqttTxBufLen (some sampleParams) sampleEnv

/-- On a connected client a request is made as a whole. -/
theorem run_allOrNothing_connected :
    AllOrNothing (sampleShadow true) (some []) uiotMqttTxBufLen sampleParams
      sampleEnv := by
  refine (run_allOrNothing_iff _ _ _ [] _ _ _ _).mpr ⟨fun _ => ?_, fun _ => ?_⟩
  · refine ⟨⟨ascii "\x7b\"Method\":\"get\"\x7d", ?_, ?_⟩, ?_⟩ <;> decide +kernel
  · decide +kernel

/-- A request that cannot be published stays queued, and one that finds the list
full is reported as made. -/
theorem run_allOrNothing_broken :
    ¬AllOrNothing (sampleShadow false) (some []) uiotMqttTxBufLen sampleParams
      sampleEnv ∧
    ¬AllOrNothing
      (run UIoTShadow.step (sampleShadow true) (List.replicate 10 sampleRequest))
      (some []) uiotMqttTxBufLen sampleParams sampleEnv := by
  constructor
  · intro all
    have same := (all.2 (by decide +kernel)).1
    exact absurd same (by decide +kernel)
  · intro all
    have same := (all.1.mp (by decide +kernel)).1
    exact absurd same (by decide +kernel)

end Shadow
end UIoT
