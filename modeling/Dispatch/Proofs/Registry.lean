import Dispatch.Handler
import Mathlib.Tactic

/-!
# Which handlers a list of numbers stands for

A registry gives a handler the place at which it is first met, and keeps it
there.  Numbers that were given out stay as they are when more handlers are
registered, and two handlers with one number have one identity.  If identities
tell the handlers apart, a list of numbers therefore stands for one list of
handlers.
-/

namespace Dispatch
namespace HandlerRegistry

variable {ε σ : Type}

/-- The numbers given out are the places of the handlers. -/
def Sound (registry : HandlerRegistry ε σ) : Prop :=
  registry.ids = registry.handlers.mapIdx fun place handler =>
    (handler.identity, (⟨place⟩ : HandlerId))

/-- What is known stays known. -/
def Extends (later earlier : HandlerRegistry ε σ) : Prop :=
  ∀ handler id, earlier.idOf? handler = some id →
    later.idOf? handler = some id

/-- The numbers of a list of handlers. -/
def Numbers (registry : HandlerRegistry ε σ) (handlers : List (Handler ε σ))
    (ids : List HandlerId) : Prop :=
  handlers.map registry.idOf? = ids.map some

/-- Handlers of a known kind, with their numbers. -/
structure Lists (registry : HandlerRegistry ε σ) (known : Set (Handler ε σ))
    (handlers : List (Handler ε σ)) (ids : List HandlerId) : Prop where
  numbers : registry.Numbers handlers ids
  known : ∀ handler ∈ handlers, handler ∈ known

theorem sound_empty : Sound (empty : HandlerRegistry ε σ) := by
  unfold Sound
  rfl

section

variable {registry later latest : HandlerRegistry ε σ} {a b handler : Handler ε σ}

/-! ## One handler -/

theorem Sound.register (hsound : registry.Sound) (handler : Handler ε σ) :
    (registry.register handler).2.Sound := by
  unfold HandlerRegistry.register
  cases registry.idOf? handler with
  | some id => exact hsound
  | none =>
      unfold Sound
      dsimp only
      rw [List.mapIdx_concat, ← hsound]

theorem Sound.sameAs (hsound : registry.Sound) {id : HandlerId}
    (ha : registry.idOf? a = some id) (hb : registry.idOf? b = some id) :
    a.SameAs b := by
  have hplace : ∀ {handler : Handler ε σ}, registry.idOf? handler = some id →
      registry.handlers[id.number]?.map Handler.identity =
        some handler.identity := by
    intro handler hid
    obtain ⟨before, after, hids, _⟩ := List.lookup_eq_some_iff.mp hid
    have hmem : (handler.identity, id) ∈ registry.ids := by simp [hids]
    rw [hsound] at hmem
    obtain ⟨place, hplace, hentry⟩ := List.mem_mapIdx.mp hmem
    obtain ⟨hidentity, rfl⟩ := Prod.mk.inj hentry
    rw [List.getElem?_eq_getElem hplace, Option.map_some, hidentity]
  have hidentity := (hplace ha).symm.trans (hplace hb)
  exact Option.some.inj hidentity

theorem idOf?_register (registry : HandlerRegistry ε σ) (handler : Handler ε σ) :
    (registry.register handler).2.idOf? handler =
      some (registry.register handler).1 := by
  unfold register
  cases hid : registry.idOf? handler with
  | some id => exact hid
  | none =>
      unfold idOf? at hid ⊢
      dsimp only
      rw [List.lookup_append, hid, Option.none_or, List.lookup_cons_self]

theorem Extends.refl (registry : HandlerRegistry ε σ) :
    registry.Extends registry :=
  fun _ _ hid => hid

theorem Extends.trans (hsecond : latest.Extends later)
    (hfirst : later.Extends registry) : latest.Extends registry := by
  intro handler id hid
  apply hsecond
  exact hfirst handler id hid

theorem extends_register (registry : HandlerRegistry ε σ)
    (handler : Handler ε σ) :
    (registry.register handler).2.Extends registry := by
  unfold register
  cases registry.idOf? handler with
  | some id => exact .refl registry
  | none =>
      intro other id hid
      unfold idOf? at hid ⊢
      dsimp only
      rw [List.lookup_append, hid, Option.some_or]

/-! ## Lists of handlers -/

theorem Sound.registerAll (hsound : registry.Sound)
    (handlers : List (Handler ε σ)) :
    (registry.registerAll handlers).2.Sound := by
  induction handlers generalizing registry with
  | nil => exact hsound
  | cons handler rest ih =>
      apply ih
      exact hsound.register handler

theorem extends_registerAll (registry : HandlerRegistry ε σ)
    (handlers : List (Handler ε σ)) :
    (registry.registerAll handlers).2.Extends registry := by
  induction handlers generalizing registry with
  | nil => exact .refl registry
  | cons handler rest ih =>
      exact (ih _).trans (extends_register registry handler)

theorem Numbers.extend {handlers : List (Handler ε σ)} {ids : List HandlerId}
    (hnumbers : registry.Numbers handlers ids)
    (hextends : later.Extends registry) : later.Numbers handlers ids := by
  unfold Numbers at hnumbers ⊢
  rw [← hnumbers, List.map_inj_left]
  intro handler hmem
  have hknown : registry.idOf? handler ∈ ids.map some := by
    rw [← hnumbers]
    exact List.mem_map_of_mem hmem
  obtain ⟨id, _, hid⟩ := List.mem_map.mp hknown
  rw [← hid]
  exact hextends handler id hid.symm

theorem Numbers.append {first second : List (Handler ε σ)}
    {firstIds secondIds : List HandlerId}
    (hfirst : registry.Numbers first firstIds)
    (hsecond : registry.Numbers second secondIds) :
    registry.Numbers (first ++ second) (firstIds ++ secondIds) := by
  unfold Numbers at hfirst hsecond ⊢
  rw [List.map_append, List.map_append, hfirst, hsecond]

theorem numbers_registerAll (registry : HandlerRegistry ε σ)
    (handlers : List (Handler ε σ)) :
    (registry.registerAll handlers).2.Numbers handlers
      (registry.registerAll handlers).1 := by
  induction handlers generalizing registry with
  | nil => rfl
  | cons handler rest ih =>
      have hrest := ih (registry.register handler).2
      have hhandler := extends_registerAll (registry.register handler).2 rest
        handler _ (idOf?_register registry handler)
      unfold Numbers at hrest ⊢
      unfold HandlerRegistry.registerAll
      dsimp only
      rw [List.map_cons, List.map_cons, hrest, hhandler]

theorem Lists.extend {known : Set (Handler ε σ)} {handlers : List (Handler ε σ)}
    {ids : List HandlerId} (hlists : registry.Lists known handlers ids)
    (hextends : later.Extends registry) : later.Lists known handlers ids where
  numbers := hlists.numbers.extend hextends
  known := hlists.known

theorem Lists.append {known : Set (Handler ε σ)}
    {first second : List (Handler ε σ)} {firstIds secondIds : List HandlerId}
    (hfirst : registry.Lists known first firstIds)
    (hsecond : registry.Lists known second secondIds) :
    registry.Lists known (first ++ second) (firstIds ++ secondIds) where
  numbers := hfirst.numbers.append hsecond.numbers
  known := by
    intro handler hmem
    rcases List.mem_append.mp hmem with hleft | hright
    · exact hfirst.known handler hleft
    · exact hsecond.known handler hright

theorem lists_registerAll {known : Set (Handler ε σ)}
    (registry : HandlerRegistry ε σ) {handlers : List (Handler ε σ)}
    (hknown : ∀ handler ∈ handlers, handler ∈ known) :
    (registry.registerAll handlers).2.Lists known handlers
      (registry.registerAll handlers).1 :=
  ⟨numbers_registerAll registry handlers, hknown⟩

/-- Among handlers that identities tell apart, a list of numbers stands for
one list of handlers. -/
theorem Lists.unique {known : Set (Handler ε σ)}
    (hidentity : Set.InjOn Handler.identity known) (hsound : registry.Sound)
    {first second : List (Handler ε σ)} {ids : List HandlerId}
    (hfirst : registry.Lists known first ids)
    (hsecond : registry.Lists known second ids) : first = second := by
  induction ids generalizing first second with
  | nil =>
      have hnil : ∀ handlers : List (Handler ε σ),
          registry.Lists known handlers [] → handlers = [] := by
        intro handlers hlists
        exact List.map_eq_nil_iff.mp hlists.numbers
      rw [hnil first hfirst, hnil second hsecond]
  | cons id ids ih =>
      obtain ⟨a, others, rfl, ha, hothers⟩ :=
        List.map_eq_cons_iff.mp hfirst.numbers
      obtain ⟨b, more, rfl, hb, hmore⟩ :=
        List.map_eq_cons_iff.mp hsecond.numbers
      have hhead : a = b := by
        apply hidentity (hfirst.known a List.mem_cons_self)
          (hsecond.known b List.mem_cons_self)
        exact hsound.sameAs ha hb
      have htail : others = more := by
        apply ih
        · exact ⟨hothers, fun handler hmem =>
            hfirst.known handler (List.mem_cons_of_mem a hmem)⟩
        · exact ⟨hmore, fun handler hmem =>
            hsecond.known handler (List.mem_cons_of_mem b hmem)⟩
      rw [hhead, htail]

/-! ## Two registries -/

/-- Equal numbers stand for equal identities. -/
theorem Numbers.identities (hsound : registry.Sound)
    {first second : List (Handler ε σ)} {ids : List HandlerId}
    (hfirst : registry.Numbers first ids)
    (hsecond : registry.Numbers second ids) :
    first.map Handler.identity = second.map Handler.identity := by
  induction ids generalizing first second with
  | nil =>
      obtain rfl := List.map_eq_nil_iff.mp hfirst
      obtain rfl := List.map_eq_nil_iff.mp hsecond
      rfl
  | cons id ids ih =>
      obtain ⟨a, others, rfl, ha, hothers⟩ := List.map_eq_cons_iff.mp hfirst
      obtain ⟨b, more, rfl, hb, hmore⟩ := List.map_eq_cons_iff.mp hsecond
      have hhead : a.identity = b.identity := hsound.sameAs ha hb
      rw [List.map_cons, List.map_cons, hhead, ih hothers hmore]

theorem Numbers.eq_of_identities {first second : List (Handler ε σ)}
    {ids others : List HandlerId} (hfirst : registry.Numbers first ids)
    (hsecond : registry.Numbers second others)
    (hidentities : first.map Handler.identity =
      second.map Handler.identity) : ids = others := by
  have hlookup : ∀ handlers : List (Handler ε σ),
      handlers.map registry.idOf? =
        (handlers.map Handler.identity).map fun identity =>
          registry.ids.lookup identity := by
    intro handlers
    rw [List.map_map]
    rfl
  unfold Numbers at hfirst hsecond
  rw [hlookup, hidentities, ← hlookup, hsecond] at hfirst
  exact (List.map_inj_right fun _ _ => Option.some.inj).mp hfirst.symm

/-- The second list is to the right registry what the first one is to the left:
they number the same handlers. -/
def Renames (left right : HandlerRegistry ε σ) (ids others : List HandlerId) :
    Prop :=
  ∃ handlers, left.Numbers handlers ids ∧ right.Numbers handlers others

section

variable {left right leftLater rightLater : HandlerRegistry ε σ}
  {ids others more moreOthers : List HandlerId}

theorem renames_nil (left right : HandlerRegistry ε σ) :
    left.Renames right [] [] :=
  ⟨[], rfl, rfl⟩

theorem Renames.append (hfirst : left.Renames right ids others)
    (hsecond : left.Renames right more moreOthers) :
    left.Renames right (ids ++ more) (others ++ moreOthers) := by
  obtain ⟨handlers, hleft, hright⟩ := hfirst
  obtain ⟨rest, hleftRest, hrightRest⟩ := hsecond
  exact ⟨handlers ++ rest, hleft.append hleftRest, hright.append hrightRest⟩

theorem Renames.extend (hrenames : left.Renames right ids others)
    (hleft : leftLater.Extends left) (hright : rightLater.Extends right) :
    leftLater.Renames rightLater ids others := by
  obtain ⟨handlers, hnumbers, hothers⟩ := hrenames
  exact ⟨handlers, hnumbers.extend hleft, hothers.extend hright⟩

theorem renames_registerAll (left right : HandlerRegistry ε σ)
    (handlers : List (Handler ε σ)) :
    (left.registerAll handlers).2.Renames (right.registerAll handlers).2
      (left.registerAll handlers).1 (right.registerAll handlers).1 :=
  ⟨handlers, numbers_registerAll left handlers,
    numbers_registerAll right handlers⟩

/-- A renaming is injective in both directions. -/
theorem Renames.eq_iff (hleft : left.Sound) (hright : right.Sound)
    (hfirst : left.Renames right ids others)
    (hsecond : left.Renames right more moreOthers) :
    ids = more ↔ others = moreOthers := by
  obtain ⟨handlers, hids, hothers⟩ := hfirst
  obtain ⟨rest, hmore, hmoreOthers⟩ := hsecond
  constructor
  · rintro rfl
    exact hothers.eq_of_identities hmoreOthers (hids.identities hleft hmore)
  · rintro rfl
    exact hids.eq_of_identities hmore (hothers.identities hright hmoreOthers)

end

end

end HandlerRegistry
end Dispatch
