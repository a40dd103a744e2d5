import UIoT.Library.KeyedList
import UIoT.Library.Machine
import UIoT.Shadow.Requests

/-!
# The registered properties

Threads register, unregister and update properties.  The look for an existing
property and the change after it are sections of the mutex of their own, so that
another thread can come in between.  The arguments are there, the client is
connected and every allocation succeeds.
-/

namespace UIoT
namespace Shadow

/-! ## Sections of the mutex -/

/-- The key a registered property is found by. -/
def PropertyHandler.key (handler : PropertyHandler) : CString :=
  handler.property.key

/-- `shadow_common_check_property_existence` -/
def shadowCommonCheckPropertyExistence (propertyList : List PropertyHandler)
    (property : DeviceProperty) : Bool :=
  (KeyedList.lookup PropertyHandler.key propertyList property.key).isSome

/-- `shadow_common_register_property_on_delta` -/
def shadowCommonRegisterPropertyOnDelta (propertyList : List PropertyHandler)
    (property : DeviceProperty) (callback : Option Nat) :
    List PropertyHandler × IoTError :=
  match callback, property.data with
  | some callback, some _ =>
      (propertyList ++ [⟨property, callback⟩], .successRet)
  | _, _ => (propertyList, .errParamInvalid)

/-- `shadow_common_remove_property` -/
def shadowCommonRemoveProperty (propertyList : List PropertyHandler)
    (property : DeviceProperty) : List PropertyHandler × IoTError :=
  match KeyedList.lookup PropertyHandler.key propertyList property.key with
  | none => (propertyList, .errShadowNotPropertyExist)
  | some _ =>
      (KeyedList.remove PropertyHandler.key propertyList property.key,
        .successRet)

/-- What `shadow_common_update_property` answers. -/
def updatePropertyAnswer (propertyList : List PropertyHandler)
    (property : DeviceProperty) (method : Method) : IoTError :=
  match KeyedList.lookup PropertyHandler.key propertyList property.key with
  | none => .errShadowNotPropertyExist
  | some _ =>
      match method with
      | .get | .deleteAll => .errParamInvalid
      | _ => .successRet

/-! ## Threads -/

/-- A call on the registered properties; the last is the part of
`uiot_shadow_update_property` that clears all of them. -/
inductive Operation
  | register (property : DeviceProperty) (callback : Option Nat)
  | unregister (property : DeviceProperty)
  | update (property : DeviceProperty) (method : Method)
  | clear
  deriving DecidableEq

/-- Where a thread is between two sections. -/
inductive Control
  | idle
  | called (operation : Operation)
  | looking (property : DeviceProperty) (callback : Option Nat)
  | inserting (property : DeviceProperty) (callback : Option Nat)
  | removing (property : DeviceProperty)
  deriving DecidableEq

/-- The list and the threads. -/
structure Registry where
  propertyList : List PropertyHandler
  threads : Nat → Control

namespace Registry

/-- Nothing is registered and nobody calls. -/
def initial : Registry := ⟨[], fun _ => .idle⟩

/-- A thread calls, or goes on to the end of its next section. -/
inductive Action
  | call (thread : Nat) (operation : Operation)
  | go (thread : Nat)
  deriving DecidableEq

/-- The thread is somewhere else. -/
def move (registry : Registry) (thread : Nat) (control : Control) : Registry :=
  { registry with threads := Function.update registry.threads thread control }

/-- The thread leaves its call with the list and the answer. -/
def leave (registry : Registry) (thread : Nat) (operation : Operation)
    (result : List PropertyHandler × IoTError) :
    Registry × Option (Operation × IoTError) :=
  ({ registry.move thread .idle with propertyList := result.1 },
    some (operation, result.2))

/-- A thread goes on, and may return. -/
def go (registry : Registry) (thread : Nat) :
    Registry × Option (Operation × IoTError) :=
  let propertyList := registry.propertyList
  match registry.threads thread with
  | .idle => (registry, none)
  | .called (.register property callback) =>
      -- the length is read without the mutex
      if propertyList.length ≠ 0 then
        (registry.move thread (.looking property callback), none)
      else
        (registry.move thread (.inserting property callback), none)
  | .looking property callback =>
      if shadowCommonCheckPropertyExistence propertyList property then
        registry.leave thread (.register property callback)
          (propertyList, .errShadowPropertyExist)
      else
        (registry.move thread (.inserting property callback), none)
  | .inserting property callback =>
      registry.leave thread (.register property callback)
        (shadowCommonRegisterPropertyOnDelta propertyList property callback)
  | .called (.unregister property) =>
      if shadowCommonCheckPropertyExistence propertyList property then
        (registry.move thread (.removing property), none)
      else
        registry.leave thread (.unregister property)
          (propertyList, .errShadowNotPropertyExist)
  | .removing property =>
      registry.leave thread (.unregister property)
        (shadowCommonRemoveProperty propertyList property)
  | .called (.update property method) =>
      registry.leave thread (.update property method)
        (updateFirst property method propertyList,
          updatePropertyAnswer propertyList property method)
  | .called .clear =>
      registry.leave thread .clear
        (propertyList.map PropertyHandler.cleared, .successRet)

/-- What an action does and which call returns. -/
def act (registry : Registry) : Action →
    Registry × Option (Operation × IoTError)
  | .call thread operation =>
      match registry.threads thread with
      | .idle => (registry.move thread (.called operation), none)
      | _ => (registry, none)
  | .go thread => registry.go thread

/-- One step of the threads. -/
def step (registry : Registry) (action : Action) : Registry :=
  (registry.act action).1

end Registry

/-! ## The map -/

/-- The registered properties by their keys. -/
abbrev PropertyMap := CString → Option PropertyHandler

/-- The data of a registered property after an update. -/
def updatedData (method : Method) (property : DeviceProperty)
    (handler : PropertyHandler) : PropertyHandler :=
  let data :=
    match method with
    | .update | .replyControlUpdate | .updateAndResetVer => property.data
    | .delete | .replyControlDelete => none
    | .get | .deleteAll => handler.property.data
  { handler with property := { handler.property with data } }

/-- What a call does to the map and answers. -/
def Operation.onMap (map : PropertyMap) : Operation → PropertyMap × IoTError
  | .register property callback =>
      match map property.key with
      | some _ => (map, .errShadowPropertyExist)
      | none =>
          (Function.update map property.key
            (callback.map fun callback => ⟨property, callback⟩), .successRet)
  | .unregister property =>
      match map property.key with
      | none => (map, .errShadowNotPropertyExist)
      | some _ => (Function.update map property.key none, .successRet)
  | .update property method =>
      match map property.key with
      | none => (map, .errShadowNotPropertyExist)
      | some handler =>
          (Function.update map property.key
              (some (updatedData method property handler)),
            match method with
            | .get | .deleteAll => .errParamInvalid
            | _ => .successRet)
  | .clear => (fun key => (map key).map PropertyHandler.cleared, .successRet)

/-- The arguments of the call are there. -/
def Operation.Given : Operation → Prop
  | .register property callback => callback ≠ none ∧ property.data ≠ none
  | _ => True

namespace Registry

/-- The registered properties as a map. -/
def map (registry : Registry) : PropertyMap :=
  KeyedList.lookup PropertyHandler.key registry.propertyList

/-- A call that returns has done to the map what it is to do, and answers that;
no other step changes the list. -/
def ActsOnMap (registry : Registry) (action : Action) : Prop :=
  match (registry.act action).2 with
  | none => (registry.step action).propertyList = registry.propertyList
  | some (operation, answer) =>
      operation.Given →
        ((registry.step action).map, answer) = operation.onMap registry.map

/-- In every state of the run the keys are distinct, and in every step the list
acts as the map. -/
def Correct (actions : List Action) : Prop :=
  (∀ front, front <+: actions → KeyedList.Distinct PropertyHandler.key
      (Machine.run step initial front).propertyList) ∧
    Machine.Along step ActsOnMap initial actions

/-- If the step adds a property to the list, none of its key is there. -/
def AddsNew (registry : Registry) : Action → Prop
  | .call _ _ => True
  | .go thread =>
      ∀ property callback,
        registry.threads thread = .inserting property callback →
          (Operation.register property callback).Given →
            property.key ∉ registry.propertyList.map PropertyHandler.key

/-- If the step adds a property to the list, no other thread stands between its
look and its change with a property of the same key. -/
def AddsAlone (registry : Registry) : Action → Prop
  | .call _ _ => True
  | .go thread =>
      ∀ property callback,
        registry.threads thread = .inserting property callback →
          ∀ other ≠ thread, ∀ property' callback',
            registry.threads other = .inserting property' callback' →
              property'.key ≠ property.key

end Registry

/-! ## Sections as operations of the map -/

theorem updatedData_key (method : Method) (property : DeviceProperty)
    (handler : PropertyHandler) :
    (updatedData method property handler).key = handler.key := rfl

/-- An update changes the first property of the key. -/
theorem updateFirst_eq (property : DeviceProperty) (method : Method)
    (propertyList : List PropertyHandler) :
    updateFirst property method propertyList =
      KeyedList.modify PropertyHandler.key (updatedData method property)
        property.key propertyList := by
  induction propertyList with
  | nil => rfl
  | cons handler propertyList inductionHypothesis =>
      unfold updateFirst KeyedList.modify
      rw [inductionHypothesis]
      rfl

/-- The section of an update is the one a request goes through. -/
theorem shadowCommonUpdateProperty_list (s : UIoTShadow)
    (property : DeviceProperty) (method : Method) :
    (shadowCommonUpdateProperty s property method true).propertyList =
      updateFirst property method s.propertyList := rfl

theorem exists_iff {propertyList : List PropertyHandler}
    {property : DeviceProperty} :
    shadowCommonCheckPropertyExistence propertyList property = true ↔
      property.key ∈ propertyList.map PropertyHandler.key :=
  KeyedList.lookup_isSome_iff

/-- A property that is there is not registered again. -/
theorem register_existing {propertyList : List PropertyHandler}
    {property : DeviceProperty}
    (found : shadowCommonCheckPropertyExistence propertyList property = true)
    (callback : Option Nat) :
    (KeyedList.lookup PropertyHandler.key propertyList,
        IoTError.errShadowPropertyExist) =
      (Operation.register property callback).onMap
        (KeyedList.lookup PropertyHandler.key propertyList) := by
  obtain ⟨handler, there⟩ := Option.isSome_iff_exists.mp found
  unfold Operation.onMap
  dsimp only
  rw [there]

theorem register_new {propertyList : List PropertyHandler}
    {property : DeviceProperty} {callback : Option Nat}
    (given : (Operation.register property callback).Given)
    (new : property.key ∉ propertyList.map PropertyHandler.key) :
    let result := shadowCommonRegisterPropertyOnDelta propertyList property
      callback
    (KeyedList.lookup PropertyHandler.key result.1, result.2) =
      (Operation.register property callback).onMap
        (KeyedList.lookup PropertyHandler.key propertyList) := by
  obtain ⟨called, data⟩ := given
  obtain ⟨callback, rfl⟩ := Option.ne_none_iff_exists'.mp called
  obtain ⟨value, data⟩ := Option.ne_none_iff_exists'.mp data
  have absent := KeyedList.lookup_eq_none_iff.mpr new
  unfold shadowCommonRegisterPropertyOnDelta Operation.onMap
  dsimp only
  rw [data, absent]
  exact Prod.ext (KeyedList.lookup_append new) rfl

theorem unregister_absent {propertyList : List PropertyHandler}
    {property : DeviceProperty}
    (absent :
      ¬shadowCommonCheckPropertyExistence propertyList property = true) :
    (KeyedList.lookup PropertyHandler.key propertyList,
        IoTError.errShadowNotPropertyExist) =
      (Operation.unregister property).onMap
        (KeyedList.lookup PropertyHandler.key propertyList) := by
  have none := KeyedList.lookup_eq_none_iff.mpr (mt exists_iff.mpr absent)
  unfold Operation.onMap
  dsimp only
  rw [none]

theorem remove_onMap {propertyList : List PropertyHandler}
    (distinct : KeyedList.Distinct PropertyHandler.key propertyList)
    (property : DeviceProperty) :
    let result := shadowCommonRemoveProperty propertyList property
    (KeyedList.lookup PropertyHandler.key result.1, result.2) =
      (Operation.unregister property).onMap
        (KeyedList.lookup PropertyHandler.key propertyList) := by
  unfold shadowCommonRemoveProperty Operation.onMap
  dsimp only
  cases found : KeyedList.lookup PropertyHandler.key propertyList
    property.key with
  | none => rfl
  | some handler =>
      exact Prod.ext (KeyedList.lookup_remove distinct property.key) rfl

theorem update_onMap (propertyList : List PropertyHandler)
    (property : DeviceProperty) (method : Method) :
    (KeyedList.lookup PropertyHandler.key
          (updateFirst property method propertyList),
        updatePropertyAnswer propertyList property method) =
      (Operation.update property method).onMap
        (KeyedList.lookup PropertyHandler.key propertyList) := by
  have changed := KeyedList.lookup_modify (updatedData_key method property)
    property.key propertyList
  rw [updateFirst_eq, changed]
  unfold updatePropertyAnswer Operation.onMap
  dsimp only
  cases found : KeyedList.lookup PropertyHandler.key propertyList
    property.key with
  | none =>
      refine Prod.ext ?_ rfl
      dsimp only
      rw [Option.map_none, ← found, Function.update_eq_self]
  | some handler => exact Prod.ext rfl rfl

theorem clear_onMap (propertyList : List PropertyHandler) :
    (KeyedList.lookup PropertyHandler.key
        (propertyList.map PropertyHandler.cleared), IoTError.successRet) =
      Operation.clear.onMap
        (KeyedList.lookup PropertyHandler.key propertyList) := by
  have keeps : ∀ handler : PropertyHandler,
      handler.cleared.key = handler.key := fun _ => rfl
  exact Prod.ext (KeyedList.lookup_map keeps propertyList) rfl

namespace Registry

variable {registry : Registry} {action : Action}

/-! ## Steps -/

/-- The last section of a call, with what it leaves of the list and answers. -/
inductive Returns (registry : Registry) : Action → Operation →
    List PropertyHandler × IoTError → Prop
  | existing {thread : Nat} {property : DeviceProperty}
      (callback : Option Nat)
      (found : shadowCommonCheckPropertyExistence registry.propertyList
        property = true) :
      Returns registry (.go thread) (.register property callback)
        (registry.propertyList, .errShadowPropertyExist)
  | inserted {thread : Nat} {property : DeviceProperty} {callback : Option Nat}
      (control : registry.threads thread = .inserting property callback) :
      Returns registry (.go thread) (.register property callback)
        (shadowCommonRegisterPropertyOnDelta registry.propertyList property
          callback)
  | absent {thread : Nat} {property : DeviceProperty}
      (missing : ¬shadowCommonCheckPropertyExistence registry.propertyList
        property = true) :
      Returns registry (.go thread) (.unregister property)
        (registry.propertyList, .errShadowNotPropertyExist)
  | removed {thread : Nat} (property : DeviceProperty) :
      Returns registry (.go thread) (.unregister property)
        (shadowCommonRemoveProperty registry.propertyList property)
  | updated {thread : Nat} (property : DeviceProperty) (method : Method) :
      Returns registry (.go thread) (.update property method)
        (updateFirst property method registry.propertyList,
          updatePropertyAnswer registry.propertyList property method)
  | cleared {thread : Nat} :
      Returns registry (.go thread) .clear
        (registry.propertyList.map PropertyHandler.cleared, .successRet)

/-- A step leaves the list alone, or it is the last section of a call. -/
theorem act_cases (registry : Registry) (action : Action) :
    (∃ after, registry.act action = (after, none) ∧
      after.propertyList = registry.propertyList) ∨
    ∃ thread operation result,
      registry.act action = registry.leave thread operation result ∧
        registry.Returns action operation result := by
  cases action with
  | call thread operation =>
      refine .inl ?_
      unfold act
      dsimp only
      cases control : registry.threads thread with
      | idle => exact ⟨_, rfl, rfl⟩
      | _ => exact ⟨_, rfl, rfl⟩
  | go thread =>
      unfold act go
      dsimp only
      cases control : registry.threads thread with
      | idle => exact .inl ⟨_, rfl, rfl⟩
      | looking property callback =>
          dsimp only
          split
          · rename_i found
            exact .inr ⟨_, _, _, rfl, .existing callback found⟩
          · exact .inl ⟨_, rfl, rfl⟩
      | inserting property callback =>
          exact .inr ⟨_, _, _, rfl, .inserted control⟩
      | removing property => exact .inr ⟨_, _, _, rfl, .removed property⟩
      | called operation =>
          cases operation with
          | register property callback =>
              dsimp only
              split
              · exact .inl ⟨_, rfl, rfl⟩
              · exact .inl ⟨_, rfl, rfl⟩
          | unregister property =>
              dsimp only
              split
              · exact .inl ⟨_, rfl, rfl⟩
              · rename_i missing
                exact .inr ⟨_, _, _, rfl, .absent missing⟩
          | update property method =>
              exact .inr ⟨_, _, _, rfl, .updated property method⟩
          | clear => exact .inr ⟨_, _, _, rfl, .cleared⟩

/-- While the keys are distinct and only new ones are added, the last section of
a call acts as on the map, and the keys stay distinct. -/
theorem Returns.correct {operation : Operation}
    {result : List PropertyHandler × IoTError}
    (returns : registry.Returns action operation result)
    (distinct : KeyedList.Distinct PropertyHandler.key registry.propertyList)
    (new : registry.AddsNew action) :
    (operation.Given →
        (KeyedList.lookup PropertyHandler.key result.1, result.2) =
          operation.onMap registry.map) ∧
      KeyedList.Distinct PropertyHandler.key result.1 := by
  cases returns with
  | existing callback found =>
      exact ⟨fun _ => register_existing found callback, distinct⟩
  | @inserted thread property callback control =>
      refine ⟨fun given => register_new given (new _ _ control given), ?_⟩
      unfold shadowCommonRegisterPropertyOnDelta
      split
      · rename_i number value data
        have given : (Operation.register property (some number)).Given :=
          ⟨nofun, by rw [data]; exact nofun⟩
        exact KeyedList.distinct_append_iff.mpr
          ⟨distinct, new _ _ control given⟩
      · exact distinct
  | absent missing => exact ⟨fun _ => unregister_absent missing, distinct⟩
  | removed property =>
      refine ⟨fun _ => remove_onMap distinct property, ?_⟩
      unfold shadowCommonRemoveProperty
      split
      · exact distinct
      · exact KeyedList.distinct_remove distinct property.key
  | updated property method =>
      refine ⟨fun _ => update_onMap _ property method, ?_⟩
      rw [updateFirst_eq]
      unfold KeyedList.Distinct
      rw [KeyedList.map_key_modify (updatedData_key method property)]
      exact distinct
  | cleared =>
      refine ⟨fun _ => clear_onMap _, ?_⟩
      unfold KeyedList.Distinct
      rw [List.map_map]
      exact distinct

/-- While the keys are distinct and only new ones are added, a step acts as on
the map, and the keys stay distinct. -/
theorem step_correct
    (distinct : KeyedList.Distinct PropertyHandler.key registry.propertyList)
    (new : registry.AddsNew action) :
    registry.ActsOnMap action ∧
      KeyedList.Distinct PropertyHandler.key
        (registry.step action).propertyList := by
  unfold ActsOnMap step
  rcases act_cases registry action with
    ⟨after, acted, same⟩ | ⟨thread, operation, result, acted, returns⟩
  · rw [acted]
    exact ⟨same, by rw [same]; exact distinct⟩
  · rw [acted]
    exact returns.correct distinct new

/-- Where a key is added again the keys are no longer distinct. -/
theorem addsNew_of_distinct
    (distinct : KeyedList.Distinct PropertyHandler.key
      (registry.step action).propertyList) : registry.AddsNew action := by
  cases action with
  | call thread operation => trivial
  | go thread =>
      rintro property callback control ⟨called, data⟩
      obtain ⟨callback, rfl⟩ := Option.ne_none_iff_exists'.mp called
      obtain ⟨value, data⟩ := Option.ne_none_iff_exists'.mp data
      have added : (registry.step (.go thread)).propertyList =
          registry.propertyList ++ [⟨property, callback⟩] := by
        unfold step act go
        dsimp only
        rw [control]
        unfold leave shadowCommonRegisterPropertyOnDelta
        dsimp only
        rw [data]
      rw [added] at distinct
      exact (KeyedList.distinct_append_iff.mp distinct).2

/-! ## Runs -/

/-- In a run the keys are distinct in every state, and every call does and
answers what it is to do on the map, exactly if no step adds a key that is
there. -/
theorem correct_iff (actions : List Action) :
    Correct actions ↔ Machine.Along step AddsNew initial actions := by
  have distinct : KeyedList.Distinct PropertyHandler.key
      initial.propertyList := List.nodup_nil
  refine Iff.trans (and_congr_left' (Machine.Along.forall_prefix_iff
    (fun registry : Registry => KeyedList.Distinct PropertyHandler.key
      registry.propertyList) initial actions)) ?_
  constructor
  · rintro ⟨⟨-, each⟩, -⟩
    exact each.imp_of_invariant (fun _ => True)
      (fun _ _ _ later => addsNew_of_distinct later) (fun _ _ _ _ => trivial)
      trivial
  · intro new
    have kept : ∀ (registry : Registry) (action : Action),
        KeyedList.Distinct PropertyHandler.key registry.propertyList →
          registry.AddsNew action → KeyedList.Distinct PropertyHandler.key
            (registry.step action).propertyList :=
      fun _ _ distinct new => (step_correct distinct new).2
    exact ⟨⟨distinct, new.imp_of_invariant _ kept kept distinct⟩,
      new.imp_of_invariant _
        (fun _ _ distinct new => (step_correct distinct new).1) kept distinct⟩

/-! ## Registrations that do not overlap -/

/-- What a thread is about to add was not there when it looked, and is not there
yet. -/
def Looked (registry : Registry) : Prop :=
  ∀ thread property callback,
    registry.threads thread = .inserting property callback →
      property.key ∉ registry.propertyList.map PropertyHandler.key

/-- A thread that has looked adds what is not there. -/
theorem Looked.addsNew (looked : registry.Looked) (action : Action) :
    registry.AddsNew action := by
  cases action with
  | call thread operation => trivial
  | go thread =>
      exact fun property callback control _ =>
        looked thread property callback control

/-- A thread moves to where it adds nothing, or has looked. -/
theorem Looked.move (looked : registry.Looked) (thread : Nat)
    {control : Control}
    (new : ∀ property callback, control = .inserting property callback →
      property.key ∉ registry.propertyList.map PropertyHandler.key) :
    (registry.move thread control).Looked := by
  intro other property callback stands
  by_cases same : other = thread
  · subst same
    have here : (registry.move other control).threads other = control :=
      Function.update_self ..
    exact new property callback (here.symm.trans stands)
  · refine looked other property callback ?_
    rw [← stands]
    exact (Function.update_of_ne same ..).symm

/-- The last section of a call adds no key that another thread is about to
add. -/
theorem Looked.leave (looked : registry.Looked) {action : Action}
    {thread : Nat} {operation : Operation}
    {result : List PropertyHandler × IoTError}
    (acted : action = .go thread)
    (returns : registry.Returns action operation result)
    (alone : registry.AddsAlone action) :
    (registry.leave thread operation result).1.Looked := by
  subst acted
  intro other property callback stands
  have apart : other ≠ thread := by
    rintro rfl
    have idle : (registry.leave other operation result).1.threads other =
        .idle := Function.update_self ..
    rw [idle] at stands
    cases stands
  have before : registry.threads other = .inserting property callback := by
    rw [← stands]
    exact (Function.update_of_ne apart ..).symm
  have absent := looked other property callback before
  change property.key ∉ result.1.map PropertyHandler.key
  cases returns with
  | existing callback found => exact absent
  | @inserted _ added number control =>
      unfold shadowCommonRegisterPropertyOnDelta
      split
      · rw [List.map_append, List.map_singleton, List.mem_append,
          List.mem_singleton]
        rintro (there | same)
        · exact absent there
        · exact alone added _ control other apart property callback before same
      · exact absent
  | absent missing => exact absent
  | removed removal =>
      unfold shadowCommonRemoveProperty
      split
      · exact absent
      · exact fun there => absent
          ((List.eraseP_sublist.map PropertyHandler.key).subset there)
  | updated changed method =>
      rw [updateFirst_eq,
        KeyedList.map_key_modify (updatedData_key method changed)]
      exact absent
  | cleared =>
      rw [List.map_map]
      exact absent

theorem step_looked (looked : registry.Looked)
    (alone : registry.AddsAlone action) : (registry.step action).Looked := by
  cases action with
  | call thread operation =>
      unfold step act
      dsimp only
      cases control : registry.threads thread with
      | idle => exact looked.move thread nofun
      | _ => exact looked
  | go thread =>
      have left := fun {operation result}
          (returns : registry.Returns (.go thread) operation result) =>
        looked.leave rfl returns alone
      unfold step act go
      dsimp only
      cases control : registry.threads thread with
      | idle => exact looked
      | looking property callback =>
          dsimp only
          split
          · rename_i found
            exact left (.existing callback found)
          · rename_i missing
            refine looked.move thread fun added number same => ?_
            obtain ⟨rfl, rfl⟩ := Control.inserting.inj same
            exact mt exists_iff.mpr missing
      | inserting property callback => exact left (.inserted control)
      | removing property => exact left (.removed property)
      | called operation =>
          cases operation with
          | register property callback =>
              dsimp only
              split
              · exact looked.move thread nofun
              · rename_i empty
                refine looked.move thread fun added number same => ?_
                rw [List.length_eq_zero_iff.mp (not_not.mp empty)]
                exact List.not_mem_nil
          | unregister property =>
              dsimp only
              split
              · exact looked.move thread nofun
              · rename_i missing
                exact left (.absent missing)
          | update property method => exact left (.updated property method)
          | clear => exact left .cleared

/-- Where no two threads stand between their look and their change with the same
key when one of them adds it, every key that is added is new. -/
theorem addsNew_of_alone {actions : List Action}
    (alone : Machine.Along step AddsAlone initial actions) :
    Machine.Along step AddsNew initial actions :=
  alone.imp_of_invariant Looked
    (fun _ action looked _ => looked.addsNew action)
    (fun _ _ looked alone => step_looked looked alone)
    (fun _ _ _ stands => Control.noConfusion stands)

/-- A property with a number. -/
def smallProperty (key : List UInt8) (zero_not_mem : 0 ∉ key) :
    DeviceProperty :=
  ⟨⟨key, zero_not_mem⟩, some (.jint8 1)⟩

/-- Two threads look before either adds. -/
def overlapping : List Action :=
  let operation :=
    Operation.register (smallProperty [97] CString.zero_not_mem_a) (some 1)
  [.call 0 operation, .call 1 operation, .go 0, .go 1, .go 0, .go 1]

/-- Both threads register the same key with success. -/
theorem overlapping_registers :
    ¬∀ actions : List Action, Correct actions := by
  intro all
  have distinct := (all overlapping).1 overlapping (List.prefix_refl _)
  unfold KeyedList.Distinct at distinct
  exact absurd distinct (by decide)

end Registry

end Shadow
end UIoT
