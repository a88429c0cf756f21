import Dispatch.Chain
import Dispatch.KeyedList
import Dispatch.Proofs.Registry
import Mathlib.Tactic

/-!
# Numbers in the order of first registration

A registry that has met some handlers knows their identities, each once, in the
order in which they came, and the number of a handler is the place of its
identity.  Everything else follows from that: two handlers have one number
exactly if they are of one identity, numbers leave no gap, and later handlers
go behind.

A registry may also offer the next number to each handler before it looks the
handler up, and take the handler for new if it is given that number.  No number
that was given out is the next one, so this comes to the same.
-/

namespace Dispatch
namespace HandlerRegistry

variable {ε σ : Type}

def identities (registry : HandlerRegistry ε σ) : List HandlerIdentity :=
  registry.handlers.map Handler.identity

section

variable {registry : HandlerRegistry ε σ} {a b handler : Handler ε σ}

/-! ## The number of a handler -/

theorem lookup_mapIdx (handlers : List (Handler ε σ)) (number : Nat → HandlerId)
    (identity : HandlerIdentity) :
    (handlers.mapIdx fun place handler =>
        (handler.identity, number place)).lookup identity =
      if identity ∈ handlers.map Handler.identity then
        some (number ((handlers.map Handler.identity).idxOf identity))
      else none := by
  induction handlers generalizing number with
  | nil => rfl
  | cons handler rest ih =>
      rw [List.mapIdx_cons]
      by_cases hsame : identity = handler.identity
      · simp [hsame]
      · rw [KeyedList.lookup_cons_of_ne hsame, ih (fun place => number (place + 1))]
        simp [hsame, Ne.symm hsame]

theorem Sound.idOf?_eq (hsound : registry.Sound) (handler : Handler ε σ) :
    registry.idOf? handler =
      if handler.identity ∈ registry.identities then
        some ⟨registry.identities.idxOf handler.identity⟩
      else none := by
  unfold idOf?
  rw [hsound, lookup_mapIdx registry.handlers HandlerId.mk]
  rfl

theorem Sound.idOf?_eq_none_iff (hsound : registry.Sound) :
    registry.idOf? handler = none ↔
      handler.identity ∉ registry.identities := by
  rw [hsound.idOf?_eq]
  simp

/-- No number that was given out is the next one. -/
theorem Sound.number_lt (hsound : registry.Sound) {id : HandlerId}
    (hid : registry.idOf? handler = some id) :
    id.number < registry.handlers.length := by
  rw [hsound.idOf?_eq] at hid
  split_ifs at hid with hmem
  obtain rfl := Option.some.inj hid
  simpa [identities] using List.idxOf_lt_length_of_mem hmem

/-! ## Offering the next number -/

def offer (registry : HandlerRegistry ε σ) (handler : Handler ε σ) :
    HandlerId × HandlerRegistry ε σ :=
  let next : HandlerId := ⟨registry.handlers.length⟩
  let id := (registry.idOf? handler).getD next
  (id, { ids := KeyedList.claim handler.identity next registry.ids
         handlers :=
           if id = next then registry.handlers ++ [handler]
           else registry.handlers })

theorem Sound.offer_eq (hsound : registry.Sound) (handler : Handler ε σ) :
    registry.offer handler = registry.register handler := by
  unfold offer HandlerRegistry.register KeyedList.claim
  cases hid : registry.idOf? handler with
  | none =>
      unfold idOf? at hid
      simp [hid]
  | some id =>
      have hne : id ≠ ⟨registry.handlers.length⟩ := by
        rintro rfl
        exact Nat.lt_irrefl _ (hsound.number_lt hid)
      unfold idOf? at hid
      simp [hid, hne]

/-! ## Identities in the order of registration -/

theorem eraseDups_concat (identities : List HandlerIdentity)
    (identity : HandlerIdentity) :
    (identities ++ [identity]).eraseDups =
      if identity ∈ identities then identities.eraseDups
      else identities.eraseDups ++ [identity] := by
  rw [List.eraseDups_append]
  by_cases hmem : identity ∈ identities
  · have hrest : [identity].removeAll identities = [] := by
      rw [List.cons_removeAll, if_neg (by simpa using hmem)]
      rfl
    rw [if_pos hmem, hrest, List.eraseDups_nil, List.append_nil]
  · have hrest : [identity].removeAll identities = [identity] := by
      rw [List.cons_removeAll, if_pos (by simpa using hmem)]
      rfl
    rw [if_neg hmem, hrest]
    rfl

theorem Sound.identities_register (hsound : registry.Sound)
    (handler : Handler ε σ) :
    (registry.register handler).2.identities =
      if handler.identity ∈ registry.identities then registry.identities
      else registry.identities ++ [handler.identity] := by
  unfold HandlerRegistry.register
  cases hid : registry.idOf? handler with
  | some id =>
      have hmem : handler.identity ∈ registry.identities := by
        by_contra hnew
        rw [hsound.idOf?_eq_none_iff.mpr hnew] at hid
        contradiction
      rw [if_pos hmem]
  | none =>
      rw [if_neg (hsound.idOf?_eq_none_iff.mp hid)]
      simp [identities]

theorem registerAll_concat (registry : HandlerRegistry ε σ)
    (handlers : List (Handler ε σ)) (handler : Handler ε σ) :
    (registry.registerAll (handlers ++ [handler])).2 =
      ((registry.registerAll handlers).2.register handler).2 := by
  induction handlers generalizing registry with
  | nil => rfl
  | cons first rest ih => exact ih (registry.register first).2

theorem identities_registerAll (handlers : List (Handler ε σ)) :
    (empty.registerAll handlers).2.identities =
      (handlers.map Handler.identity).eraseDups := by
  induction handlers using List.reverseRecOn with
  | nil => rfl
  | append_singleton handlers handler ih =>
      have hsound := sound_empty.registerAll handlers
      rw [registerAll_concat, hsound.identities_register, ih, List.map_append,
        List.map_singleton, eraseDups_concat]
      simp only [List.mem_eraseDups]

theorem nodup_identities_registerAll (handlers : List (Handler ε σ)) :
    (empty.registerAll handlers).2.identities.Nodup := by
  induction handlers using List.reverseRecOn with
  | nil => exact List.nodup_nil
  | append_singleton handlers handler ih =>
      have hsound := sound_empty.registerAll handlers
      rw [registerAll_concat, hsound.identities_register]
      exact KeyedList.nodup_ite_concat ih

/-! ## The numbers that were answered -/

theorem mem_identities_registerAll {handlers : List (Handler ε σ)} :
    handler.identity ∈ (empty.registerAll handlers).2.identities ↔
      ∃ known ∈ handlers, known.SameAs handler := by
  rw [identities_registerAll, List.mem_eraseDups, List.mem_map]
  rfl

theorem ids_registerAll (handlers : List (Handler ε σ)) :
    (empty.registerAll handlers).1 = handlers.map fun handler =>
      ⟨(empty.registerAll handlers).2.identities.idxOf handler.identity⟩ := by
  have hsound := sound_empty.registerAll handlers
  have hnumbers := numbers_registerAll empty handlers
  unfold Numbers at hnumbers
  refine (List.map_inj_right fun _ _ => Option.some.inj).mp ?_
  rw [← hnumbers, List.map_map, List.map_inj_left]
  intro handler hmem
  have hknown : handler.identity ∈
      (empty.registerAll handlers).2.identities :=
    mem_identities_registerAll.mpr ⟨handler, hmem, rfl⟩
  rw [hsound.idOf?_eq, if_pos hknown]
  rfl

theorem mem_ids_registerAll {handlers : List (Handler ε σ)} {number : Nat} :
    ⟨number⟩ ∈ (empty.registerAll handlers).1 ↔
      number < (empty.registerAll handlers).2.handlers.length := by
  have hlength : (empty.registerAll handlers).2.identities.length =
      (empty.registerAll handlers).2.handlers.length := List.length_map _
  rw [ids_registerAll, List.mem_map, ← hlength]
  constructor
  · rintro ⟨handler, hmem, hid⟩
    obtain rfl := HandlerId.mk.inj hid
    apply List.idxOf_lt_length_of_mem
    exact mem_identities_registerAll.mpr ⟨handler, hmem, rfl⟩
  · intro hnumber
    have hmem := List.getElem_mem hnumber
    obtain ⟨first, _, hfirst⟩ := List.mem_map.mp hmem
    rw [← hfirst] at hmem
    obtain ⟨handler, hhandler, hsame⟩ := mem_identities_registerAll.mp hmem
    refine ⟨handler, hhandler, ?_⟩
    have hplace := (nodup_identities_registerAll handlers).idxOf_getElem
      number hnumber
    rw [← hfirst] at hplace
    rw [show handler.identity = first.identity from hsame, hplace]

theorem getElem?_ids_eq_iff {handlers : List (Handler ε σ)} {i j : Nat}
    (ha : handlers[i]? = some a) (hb : handlers[j]? = some b) :
    (empty.registerAll handlers).1[i]? = (empty.registerAll handlers).1[j]? ↔
      a.SameAs b := by
  have hknown : a.identity ∈ (empty.registerAll handlers).2.identities :=
    mem_identities_registerAll.mpr ⟨a, List.mem_of_getElem? ha, rfl⟩
  rw [ids_registerAll, List.getElem?_map, List.getElem?_map, ha, hb,
    Option.map_some, Option.map_some, Option.some.injEq, HandlerId.mk.injEq,
    List.idxOf_inj hknown]
  rfl

/-- A number that was answered stays, for clones too. -/
theorem stable_register (registry : HandlerRegistry ε σ)
    (handler : Handler ε σ) (more : List (Handler ε σ))
    {clone : Handler ε σ} (hclone : clone.SameAs handler) :
    let id := (registry.register handler).1
    let later := ((registry.register handler).2.registerAll more).2
    (later.register clone).1 = id ∧ later.idOf? clone = some id := by
  intro id later
  have hid : later.idOf? handler = some id :=
    extends_registerAll _ more handler id (idOf?_register registry handler)
  have hcloned : later.idOf? clone = some id := by
    unfold idOf? at hid ⊢
    rw [show clone.identity = handler.identity from hclone, hid]
  refine ⟨?_, hcloned⟩
  unfold register
  rw [hcloned]

/-! ## Keys of chains -/

/-- Keys are equal exactly if the handlers are, one by one. -/
theorem Sound.ofParts_eq_iff (hsound : registry.Sound)
    {shared route otherShared otherRoute : List (Handler ε σ)}
    {sharedIds routeIds otherSharedIds otherRouteIds : List HandlerId}
    (hshared : registry.Numbers shared sharedIds)
    (hroute : registry.Numbers route routeIds)
    (hotherShared : registry.Numbers otherShared otherSharedIds)
    (hotherRoute : registry.Numbers otherRoute otherRouteIds) :
    ChainKey.ofParts sharedIds routeIds =
        ChainKey.ofParts otherSharedIds otherRouteIds ↔
      List.Forall₂ Handler.SameAs (shared ++ route)
        (otherShared ++ otherRoute) := by
  have hfirst := hshared.append hroute
  have hsecond := hotherShared.append hotherRoute
  have hsame : List.Forall₂ Handler.SameAs (shared ++ route)
        (otherShared ++ otherRoute) ↔
      (shared ++ route).map Handler.identity =
        (otherShared ++ otherRoute).map Handler.identity := by
    rw [← List.forall₂_eq_eq_eq, List.forall₂_map_left_iff,
      List.forall₂_map_right_iff]
    rfl
  unfold ChainKey.ofParts
  rw [ChainKey.mk.injEq, hsame]
  constructor
  · intro hids
    rw [← hids] at hsecond
    exact hfirst.identities hsound hsecond
  · intro hidentities
    exact hfirst.eq_of_identities hsecond hidentities

/-! ## What a number says -/

/-- A registry that has met some handlers and answered with some numbers. -/
structure Numbering (handlers : List (Handler ε σ)) (ids : List HandlerId)
    (registry : HandlerRegistry ε σ) : Prop where
  inOrder : registry.identities = (handlers.map Handler.identity).eraseDups
  places : ids = handlers.map fun handler =>
    ⟨registry.identities.idxOf handler.identity⟩
  gapless : ∀ number, ⟨number⟩ ∈ ids ↔ number < registry.handlers.length
  injective : ∀ (i j : Nat) (a b : Handler ε σ),
    handlers[i]? = some a → handlers[j]? = some b →
    (ids[i]? = ids[j]? ↔ a.SameAs b)
  unknown : ∀ handler, registry.idOf? handler = none ↔
    ∀ known ∈ handlers, ¬known.SameAs handler
  offered : ∀ handler, registry.offer handler = registry.register handler
  stable : ∀ (handler : Handler ε σ) more (clone : Handler ε σ),
    clone.SameAs handler →
    let id := (registry.register handler).1
    let later := ((registry.register handler).2.registerAll more).2
    (later.register clone).1 = id ∧ later.idOf? clone = some id
  keys : ∀ shared route otherShared otherRoute
      sharedIds routeIds otherSharedIds otherRouteIds,
    registry.Numbers shared sharedIds → registry.Numbers route routeIds →
    registry.Numbers otherShared otherSharedIds →
    registry.Numbers otherRoute otherRouteIds →
      (ChainKey.ofParts sharedIds routeIds =
          ChainKey.ofParts otherSharedIds otherRouteIds ↔
        List.Forall₂ Handler.SameAs (shared ++ route)
          (otherShared ++ otherRoute))

theorem numbering_registerAll (handlers : List (Handler ε σ)) :
    Numbering handlers (empty.registerAll handlers).1
      (empty.registerAll handlers).2 := by
  have hsound : (empty.registerAll handlers).2.Sound :=
    sound_empty.registerAll handlers
  exact {
    inOrder := identities_registerAll handlers
    places := ids_registerAll handlers
    gapless := fun number => mem_ids_registerAll
    injective := fun i j a b => getElem?_ids_eq_iff
    unknown := by
      intro handler
      rw [hsound.idOf?_eq_none_iff, mem_identities_registerAll]
      push Not
      rfl
    offered := hsound.offer_eq
    stable := fun handler more clone => stable_register _ handler more
    keys := by
      intro shared route otherShared otherRoute
        sharedIds routeIds otherSharedIds otherRouteIds
      exact hsound.ofParts_eq_iff }

example (body : Nat → Scope ε σ → Program ε σ) :
    let named (key : Nat) (label : String) : Handler ε σ :=
      { identity := .custom key, label, body }
    (empty.registerAll [named 7 "auth", named 4 "log", named 7 "clone"]).1 =
      [⟨0⟩, ⟨1⟩, ⟨0⟩] :=
  rfl

end

end HandlerRegistry
end Dispatch
