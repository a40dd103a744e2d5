import UIoT.Shadow.Correlation
import UIoT.Utils.List

/-!
# The nodes of the requests

`request_list` is a linked list on the heap.  The two functions that change it
are followed here pointer by pointer: `shadow_add_request_to_list` pushes a new
node, and the handlers of `_traverse_list` remove nodes while an iterator goes
through the list.  Neither follows a pointer to a freed node, and what they make
of the nodes is what the shadow client makes of its requests.
-/

namespace UIoT
namespace Shadow

/-! ## On nodes -/

/-- A shadow client and the nodes of its requests. -/
abbrev NodeState := UIoTShadow × LinkedList Request

/-- `shadow_add_request_to_list`, which gets its node at a free address. -/
def shadowAddRequestNode (s : UIoTShadow) (list : LinkedList Request)
    (params : RequestParams) (env : RequestEnv) (node : Nat) :
    Option (NodeState × IoTError) :=
  let s := s.lock .request
  if list.len ≥ UInt32.ofNat maxAppendingRequestAtAnyGivenTime then
    some ((s.unlock .request, list), .errMaxAppendingRequest)
  else if !env.requestAllocated then
    some ((s.unlock .request, list), .failureRet)
  else if !env.nodeAllocated then
    some ((s.unlock .request, list), .failureRet)
  else do
    let request := requestOf s params
    let list ← (list.listNodeNew node request).listRpush node
    let s := { s with requestList := s.requestList ++ [request] }
    pure ((s.unlock .request, list), .successRet)

/-- A handler of `_traverse_list`: the request on the node is told its outcome,
if it has one, and its node is removed. -/
def handleNode (outcome : UIoTShadow → Request → Option RequestAck)
    (state : NodeState) (node : Nat) : Option NodeState := do
  let (s, list) := state
  let cell ← list.nodes node
  match outcome s cell.val with
  | none => some (s, list)
  | some ack =>
      (list.listRemove node).map fun list => (finish s cell.val ack, list)

/-- `_handle_request_callback` -/
def handleRequestNode (pType : List UInt8) :
    NodeState → Nat → Option NodeState :=
  handleNode fun s _ => some (ackOf s.cloudRcvBuf pType)

/-- `_handle_expired_request_callback` -/
def handleExpiredNode : NodeState → Nat → Option NodeState :=
  handleNode fun s request =>
    if request.timer.hasExpired s.mqtt.clock then some .timeout else none

/-- The loop of `_traverse_list`, for a number of turns. -/
def traverseNodesLoop (traverseHandle : NodeState → Nat → Option NodeState) :
    Nat → ListIterator → NodeState → Option NodeState
  | 0, _, _ => none
  | turns + 1, iter, state => do
      let (node, iter) ← state.2.listIteratorNext iter
      match node with
      | none => pure state
      | some node => do
          let state ← traverseHandle state node
          traverseNodesLoop traverseHandle turns iter state

/-- `_traverse_list` -/
def traverseNodes (turns : Nat) (s : UIoTShadow) (list : LinkedList Request)
    (iteratorAllocated : Bool)
    (traverseHandle : NodeState → Nat → Option NodeState) : Option NodeState :=
  let s := s.lock .request
  if list.len = 0 then some (s.unlock .request, list)
  else if !iteratorAllocated then some (s.unlock .request, list)
  else do
    let (s, list) ← traverseNodesLoop traverseHandle turns
      (list.listIteratorNew .tail) (s, list)
    pure (s.unlock .request, list)

/-! ## The requests on the nodes -/

/-- The nodes of the list, with their addresses, hold the requests of the
client. -/
structure Listed (s : UIoTShadow) (list : LinkedList Request)
    (entries : List (Nat × Request)) : Prop where
  holds : list.Holds entries
  requests : entries.map Prod.snd = s.requestList

/-- Taking a request off the list where all have other numbers leaves the
others. -/
theorem eraseP_number_append {front back : List Request} {request : Request}
    (pairwise : (front ++ request :: back).Pairwise fun first second =>
      first.number < second.number) :
    (front ++ request :: back).eraseP
        (fun other => other.number = request.number) = front ++ back := by
  have before : ∀ other ∈ front,
      ¬decide (other.number = request.number) = true := by
    intro other mem same
    have less := (List.pairwise_append.mp pairwise).2.2 other mem request
      (List.mem_cons_self ..)
    exact Nat.ne_of_lt less (of_decide_eq_true same)
  rw [List.eraseP_append_right _ before, List.eraseP_cons_of_pos (by simp)]

theorem finish_requestList (s : UIoTShadow) (request : Request)
    (ack : RequestAck) :
    (finish s request ack).requestList =
      s.requestList.eraseP fun other => other.number = request.number := by
  unfold finish
  cases request.callback <;> rfl

section Traversals

variable {outcome : UIoTShadow → Request → Option RequestAck}
  {traverseHandle : UIoTShadow → Request → UIoTShadow}

/-- The loop over the nodes tells the requests what the traversal of the
requests tells them, and leaves the nodes of those that stay, in their
order. -/
theorem traverseNodesLoop_refines
    (handles : ∀ s request, traverseHandle s request =
      match outcome s request with
      | none => s
      | some ack => finish s request ack)
    (front kept : List (Nat × Request)) (turns : Nat) (s : UIoTShadow)
    (list : LinkedList Request) (listed : Listed s list (front ++ kept))
    (pairwise : s.requestList.Pairwise fun first second =>
      first.number < second.number)
    (enough : front.length < turns) :
    ∃ after remaining,
      traverseNodesLoop (handleNode outcome) turns
          ⟨(front.map Prod.fst).getLast?, .tail⟩ (s, list) =
        some ((front.map Prod.snd).reverse.foldl traverseHandle s, after) ∧
      Listed ((front.map Prod.snd).reverse.foldl traverseHandle s) after
        remaining ∧
      remaining.Sublist (front ++ kept) := by
  induction front using List.reverseRecOn generalizing kept turns s list with
  | nil =>
      cases turns with
      | zero => exact absurd enough (Nat.not_lt_zero _)
      | succ turns => exact ⟨list, kept, rfl, listed, List.Sublist.refl _⟩
  | append_singleton front entry inductionHypothesis =>
      cases turns with
      | zero => exact absurd enough (Nat.not_lt_zero _)
      | succ turns =>
          have shorter : front.length < turns := by
            rw [List.length_append, List.length_singleton] at enough
            exact Nat.lt_of_succ_lt_succ enough
          obtain ⟨holds, requests⟩ := listed
          rw [List.append_assoc, List.singleton_append] at holds requests
          rw [List.append_assoc, List.singleton_append]
          have next := LinkedList.listIteratorNext_tail holds
          have last : ((front ++ [entry]).map Prod.fst).getLast? =
              some entry.1 := by simp
          have visits : ((front ++ [entry]).map Prod.snd).reverse.foldl
              traverseHandle s =
                (front.map Prod.snd).reverse.foldl traverseHandle
                  (traverseHandle s entry.2) := by simp
          rw [last, visits, traverseNodesLoop, handles]
          simp only [next, Option.bind_eq_bind, Option.bind_some]
          have handled : handleNode outcome (s, list) entry.1 =
              match outcome s entry.2 with
              | none => some (s, list)
              | some ack =>
                  (list.listRemove entry.1).map fun list =>
                    (finish s entry.2 ack, list) := by
            unfold handleNode
            simp only [holds.cell, Option.bind_eq_bind, Option.bind_some]
          rw [handled]
          cases outcome s entry.2 with
          | none =>
              exact inductionHypothesis (entry :: kept) turns s list
                ⟨holds, requests⟩ pairwise shorter
          | some ack =>
              obtain ⟨after, removed, holds, -⟩ :=
                LinkedList.listRemove_holds holds
              rw [← requests, List.map_append, List.map_cons] at pairwise
              have erased : (finish s entry.2 ack).requestList =
                  (front ++ kept).map Prod.snd := by
                rw [finish_requestList, ← requests, List.map_append,
                  List.map_cons, eraseP_number_append pairwise,
                  List.map_append]
              have fewer := pairwise.sublist
                (List.Sublist.append_left (List.sublist_cons_self ..) _)
              rw [← List.map_append, ← erased] at fewer
              obtain ⟨last, remaining, loops, listed, sublist⟩ :=
                inductionHypothesis kept turns (finish s entry.2 ack) after
                  ⟨holds, erased.symm⟩ fewer shorter
              refine ⟨last, remaining, ?_, listed, sublist.trans ?_⟩
              · rw [removed]
                exact loops
              · exact List.Sublist.append_left (List.sublist_cons_self ..) _

/-- A traversal of the nodes, given enough turns for all of them, ends without
following a pointer to a freed node.  The client is told what the traversal of
its requests tells it, and the nodes that stay hold the requests that stay. -/
theorem traverseNodes_refines
    (handles : ∀ s request, traverseHandle s request =
      match outcome s request with
      | none => s
      | some ack => finish s request ack)
    {s : UIoTShadow} {list : LinkedList Request}
    {entries : List (Nat × Request)} (listed : Listed s list entries)
    (ordered : s.books.Ordered) (small : entries.length < 2 ^ 32)
    {turns : Nat} (enough : entries.length < turns) (iteratorAllocated : Bool) :
    ∃ after remaining,
      traverseNodes turns s list iteratorAllocated (handleNode outcome) =
        some (traverseList s iteratorAllocated traverseHandle, after) ∧
      Listed (traverseList s iteratorAllocated traverseHandle) after
        remaining ∧
      remaining.Sublist entries := by
  have empty_iff : list.len = 0 ↔ s.requestList.length = 0 := by
    rw [listed.holds.len_eq_zero small, ← listed.requests, List.length_map,
      List.length_eq_zero_iff]
  unfold traverseNodes traverseList
  dsimp only
  have locked : (s.lock .request).requestList = s.requestList := rfl
  rw [locked]
  by_cases empty : s.requestList.length = 0
  · rw [if_pos empty, if_pos (empty_iff.mpr empty)]
    exact ⟨list, entries, rfl, ⟨listed.holds, listed.requests⟩,
      List.Sublist.refl _⟩
  rw [if_neg empty, if_neg (mt empty_iff.mp empty)]
  cases iteratorAllocated with
  | false =>
      exact ⟨list, entries, rfl, ⟨listed.holds, listed.requests⟩,
        List.Sublist.refl _⟩
  | true =>
      rw [if_neg (by decide), if_neg (by decide),
        LinkedList.listIteratorNew_tail listed.holds]
      have initially : Listed (s.lock .request) list (entries ++ []) := by
        rw [List.append_nil]
        exact ⟨listed.holds, listed.requests⟩
      obtain ⟨after, remaining, loops, still, sublist⟩ :=
        traverseNodesLoop_refines handles entries [] turns (s.lock .request)
          list initially ordered.1 enough
      rw [listed.requests] at loops still
      rw [List.append_nil] at sublist
      refine ⟨after, remaining, ?_, ⟨still.holds, still.requests⟩, sublist⟩
      simp only [loops, Option.bind_eq_bind, Option.bind_some]
      rfl

end Traversals

/-- Queueing a request on a free node, where there is room for it, is queueing
the request; nothing but its node is added to the list. -/
theorem shadowAddRequestNode_refines {s : UIoTShadow}
    {list : LinkedList Request} {entries : List (Nat × Request)}
    (listed : Listed s list entries) (small : entries.length < 2 ^ 32)
    (params : RequestParams) (env : RequestEnv) {node : Nat}
    (free : list.nodes node = none) :
    ∃ after added,
      shadowAddRequestNode s list params env node =
        some (((shadowAddRequestToList s params env).1, after),
          (shadowAddRequestToList s params env).2) ∧
      Listed (shadowAddRequestToList s params env).1 after
        (entries ++ added) ∧
      added.length ≤ 1 := by
  have length : entries.length = s.requestList.length := by
    rw [← listed.requests, List.length_map]
  have full_iff : list.len ≥ UInt32.ofNat maxAppendingRequestAtAnyGivenTime ↔
      s.requestList.length ≥ maxAppendingRequestAtAnyGivenTime := by
    rw [listed.holds.len, ← length, ge_iff_le, UInt32.le_iff_toNat_le,
      UInt32.toNat_ofNat_of_lt' small,
      UInt32.toNat_ofNat_of_lt' (by decide)]
  have unchanged : ∀ ret,
      ∃ after added,
        some ((((s.lock .request).unlock .request, list), ret) :
            NodeState × IoTError) =
          some ((((s.lock .request).unlock .request), after), ret) ∧
        Listed ((s.lock .request).unlock .request) after (entries ++ added) ∧
        added.length ≤ 1 := by
    intro ret
    refine ⟨list, [], rfl, ?_, Nat.zero_le _⟩
    rw [List.append_nil]
    exact ⟨listed.holds, listed.requests⟩
  unfold shadowAddRequestNode shadowAddRequestToList
  dsimp only
  have locked : (s.lock .request).requestList = s.requestList := rfl
  rw [locked]
  by_cases full : s.requestList.length ≥ maxAppendingRequestAtAnyGivenTime
  · rw [if_pos full, if_pos (full_iff.mpr full)]
    exact unchanged _
  rw [if_neg full, if_neg (mt full_iff.mp full)]
  cases env.requestAllocated with
  | false => exact unchanged _
  | true =>
      cases env.nodeAllocated with
      | false => exact unchanged _
      | true =>
          let request := requestOf (s.lock .request) params
          obtain ⟨fresh, holds⟩ :=
            LinkedList.listNodeNew_holds listed.holds free request
          have found : (list.listNodeNew node request).nodes node =
              some ⟨none, none, request⟩ := Function.update_self ..
          obtain ⟨after, pushed, still⟩ :=
            LinkedList.listRpush_holds holds found fresh small
          refine ⟨after, [(node, request)], ?_, ⟨still, ?_⟩, Nat.le_refl _⟩
          · simp only [Bool.not_true, Bool.false_eq_true, if_false,
              Option.bind_eq_bind]
            have pushed : (list.listNodeNew node
                (requestOf (s.lock .request) params)).listRpush node =
              some after := pushed
            rw [pushed]
            rfl
          · rw [List.map_append, listed.requests]
            rfl

end Shadow
end UIoT
