import Dispatch.Proofs.RouteTable.Texts
import Dispatch.Proofs.Templates
import Dispatch.Router.Group
import Mathlib.Data.List.DropRight
import Mathlib.Tactic

/-!
# Groups inside groups

However a base is spelled, and however deep groups are nested, what counts of
the bases is their pieces.  The base of a group has the pieces of all bases
around it, outermost first, and it is empty if there are none; joining a
template to it adds the pieces of the template.

So a route that is registered through groups ends as one that is registered
directly, with one slash before each piece.  Only a template without any text
is told from `/` here: without a piece in the bases it stays empty.
-/

namespace Dispatch

variable {ε σ : Type}

/-! ## Slashes at the ends of a text -/

section

variable {text : List Char}

theorem slashParts_dropWhile_slash (text : List Char) :
    slashParts (text.dropWhile (· = '/')) = slashParts text := by
  rw [← spans_map_fst, ← spans_map_fst, spans_dropWhile_slash]

theorem slashParts_rdropWhile_slash (text : List Char) :
    slashParts (text.rdropWhile (· = '/')) = slashParts text := by
  induction text using List.reverseRecOn with
  | nil => simp
  | append_singleton text c ih =>
      rw [List.rdropWhile_concat]
      split_ifs with hc
      · obtain rfl : c = '/' := by simpa using hc
        rw [ih, slashParts_append_slash, slashParts_nil, List.append_nil]
      · rfl

theorem eq_slash_of_slashParts (hparts : slashParts text = []) :
    ∀ c ∈ text, c = '/' := by
  induction text with
  | nil => simp
  | cons c rest ih =>
      by_cases hc : c = '/'
      · subst c
        rw [slashParts_slash_cons] at hparts
        simpa using ih hparts
      · rw [slashParts_cons_of_ne hc] at hparts
        split at hparts
        · split_ifs at hparts
        · contradiction

namespace RouteGroup

theorem trimSlashes_eq (text : List Char) :
    trimSlashes text = (text.dropWhile (· = '/')).rdropWhile (· = '/') :=
  rfl

theorem slashParts_trimSlashes (text : List Char) :
    slashParts (trimSlashes text) = slashParts text := by
  rw [trimSlashes_eq, slashParts_rdropWhile_slash, slashParts_dropWhile_slash]

/-- A trimmed text does not end in a slash, so one without pieces is empty. -/
theorem trimSlashes_eq_nil (hparts : slashParts text = []) :
    trimSlashes text = [] := by
  rw [← slashParts_trimSlashes, trimSlashes_eq] at hparts
  rw [trimSlashes_eq]
  by_contra hne
  have hlast := List.rdropWhile_last_not _ _ hne
  have hslash := eq_slash_of_slashParts hparts _ (List.getLast_mem hne)
  exact hlast (by simpa using hslash)

end RouteGroup
end

/-! ## Bases -/

/-- The texts that a group has for its base. -/
structure IsBase (base : String) : Prop where
  empty : slashParts base.toList = [] → base = ""
  slash : base ≠ "" → base.toList.head? = some '/'

namespace RouteGroup

theorem slashParts_normalize (base : String) :
    slashParts (normalize base).toList = slashParts base.toList := by
  rw [← slashParts_trimSlashes base.toList]
  unfold normalize
  split
  · next hnil => simp [hnil]
  · next trimmed hne => simp

theorem isBase_normalize (base : String) : IsBase (normalize base) where
  empty := by
    intro hparts
    rw [slashParts_normalize] at hparts
    unfold normalize
    rw [trimSlashes_eq_nil hparts]
  slash := by
    unfold normalize
    split <;> simp

section

variable {base template : String}

theorem slashParts_join (base template : String) :
    slashParts (join base template).toList =
      slashParts base.toList ++ slashParts template.toList := by
  unfold join
  split
  · next hnil => simp [hnil]
  · next rest hslash =>
      simp [hslash, slashParts_append_slash]
  · next hnil hslash =>
      simp [slashParts_append_slash]

theorem join_eq_empty_iff :
    join base template = "" ↔ base = "" ∧ template = "" := by
  unfold join
  split
  · next hnil => simp [String.toList_eq_nil_iff.mp hnil]
  · next rest hslash => simp
  · next hnil hslash =>
      have hne : template ≠ "" := fun h => hnil (by simp [h])
      simp [hne]

theorem head?_join (hbase : IsBase base) (hne : join base template ≠ "") :
    (join base template).toList.head? = some '/' := by
  by_cases hempty : base = ""
  · subst base
    unfold join at hne ⊢
    split at hne
    · contradiction
    · next rest hslash => simp [hslash]
    · simp
  · obtain ⟨rest, hlist⟩ := List.head?_eq_some_iff.mp (hbase.slash hempty)
    unfold join
    split
    · rw [hlist]
      rfl
    · simp [hlist]
    · simp [hlist]

end

/-! ## Nesting -/

/-- The group that is reached from the outermost one by opening groups inside
each other, each with a base and with middleware of its own. -/
def innermost (base : String) (own : List (Handler ε σ))
    (inner : List (String × List (Handler ε σ))) : RouteGroup ε σ :=
  inner.foldl (fun group level => (group.nested level.1).useMiddleware level.2)
    ((ofBase base).useMiddleware own)

theorem innermost_concat (base : String) (own : List (Handler ε σ))
    (inner : List (String × List (Handler ε σ)))
    (level : String × List (Handler ε σ)) :
    innermost base own (inner ++ [level]) =
      ((innermost base own inner).nested level.1).useMiddleware level.2 := by
  simp [innermost]

/-- What the groups that are open around a route add up to. -/
structure AddsUp (group : RouteGroup ε σ)
    (levels : List (String × List (Handler ε σ))) : Prop where
  isBase : IsBase group.base
  pieces : slashParts group.base.toList =
    levels.flatMap fun level => slashParts level.1.toList
  middleware : group.middleware = levels.flatMap Prod.snd

theorem addsUp_ofBase (base : String) (own : List (Handler ε σ)) :
    ((ofBase base).useMiddleware own).AddsUp [(base, own)] where
  isBase := isBase_normalize base
  pieces := by
    rw [List.flatMap_singleton]
    exact slashParts_normalize base
  middleware := by simp [ofBase, useMiddleware]

theorem AddsUp.nested {group : RouteGroup ε σ}
    {levels : List (String × List (Handler ε σ))} (hadds : group.AddsUp levels)
    (level : String × List (Handler ε σ)) :
    ((group.nested level.1).useMiddleware level.2).AddsUp
      (levels ++ [level]) where
  isBase := isBase_normalize _
  pieces := by
    rw [List.flatMap_append, List.flatMap_singleton, ← hadds.pieces,
      ← slashParts_join]
    exact slashParts_normalize _
  middleware := by
    rw [List.flatMap_append, List.flatMap_singleton, ← hadds.middleware]
    rfl

theorem addsUp_innermost (base : String) (own : List (Handler ε σ))
    (inner : List (String × List (Handler ε σ))) :
    (innermost base own inner).AddsUp ((base, own) :: inner) := by
  induction inner using List.reverseRecOn with
  | nil => exact addsUp_ofBase base own
  | append_singleton inner level ih =>
      rw [innermost_concat]
      exact ih.nested level

end RouteGroup

/-! ## Two spellings of a template -/

/-- The pieces of a template. -/
def templatePieces (template : String) : List String :=
  (slashParts template.toList).map String.ofList

theorem isPiece_of_mem_templatePieces {template piece : String}
    (hmem : piece ∈ templatePieces template) : IsPiece piece := by
  obtain ⟨part, hpart, rfl⟩ := List.mem_map.mp hmem
  obtain ⟨hne, hslash, _⟩ := mem_slashParts hpart
  exact ⟨by simpa using hne, by simpa using hslash⟩

/-- A slash before each piece, with one slash if there is no piece. -/
theorem toList_slash_intercalate (text : String) (texts : List String) :
    ("/" ++ "/".intercalate (text :: texts)).toList =
      slashed (text :: texts) := by
  induction texts generalizing text with
  | nil => simp [slashed]
  | cons next texts ih =>
      have hrest := ih next
      simp only [slashed, List.flatMap_cons, String.toList_append,
        String.intercalate_cons_cons] at hrest ⊢
      simp [← hrest]

theorem slashParts_slash_intercalate {texts : List String}
    (hpieces : ∀ text ∈ texts, IsPiece text) :
    slashParts ("/" ++ "/".intercalate texts).toList =
      texts.map String.toList := by
  cases texts with
  | nil => simp
  | cons text texts =>
      rw [toList_slash_intercalate]
      simpa using slashParts_slashed_append hpieces (Or.inl rfl)

/-- Programs that agree up to their errors do so in sequence. -/
theorem mapError_bind_congr {ε δ α β : Type} {shown : ε → δ}
    {first second : Except ε α} {next after : α → Except ε β}
    (hfirst : first.mapError shown = second.mapError shown)
    (hnext : ∀ value, (next value).mapError shown =
      (after value).mapError shown) :
    (first >>= next).mapError shown = (second >>= after).mapError shown := by
  cases first with
  | error error =>
      cases second with
      | error other => exact congrArg Except.error (Except.error.inj hfirst)
      | ok value => contradiction
  | ok value =>
      cases second with
      | error other => contradiction
      | ok same =>
          obtain rfl := Except.ok.inj hfirst
          exact hnext value

namespace Pattern

section

variable {text other : String}

theorem mapError_kind_readPiece (text other : String) (before : List String)
    (last : Bool) (piece : List Char) :
    (readPiece text before last piece).mapError PatternError.kind =
      (readPiece other before last piece).mapError PatternError.kind := by
  unfold readPiece
  split <;> (try split_ifs) <;> rfl

/-- The kind of a fault does not depend on the template that it names. -/
theorem mapError_kind_readPieces (text other : String) (before : List String)
    (pieces : List (List Char)) :
    (readPieces text before pieces).mapError PatternError.kind =
      (readPieces other before pieces).mapError PatternError.kind := by
  induction pieces generalizing before with
  | nil => rfl
  | cons piece rest ih =>
      rw [readPieces, readPieces]
      refine mapError_bind_congr (mapError_kind_readPiece ..) fun segment => ?_
      exact mapError_bind_congr (ih _) fun segments => rfl

/-- Templates with the same pieces are read alike. -/
theorem compile_cases (htext : text.toList.head? = some '/')
    (hother : other.toList.head? = some '/')
    (hpieces : slashParts text.toList = slashParts other.toList)
    (method : Option Method) :
    (∃ error fault, compile text method = .error error ∧
        compile other method = .error fault ∧ error.kind = fault.kind) ∨
      ∃ segments, compile text method = .ok ⟨text, method, segments⟩ ∧
        compile other method = .ok ⟨other, method, segments⟩ := by
  have hkind := mapError_kind_readPieces text other []
    (slashParts other.toList)
  rw [compile_of_slash htext, compile_of_slash hother, hpieces]
  cases hleft : readPieces text [] (slashParts other.toList) with
  | error error =>
      rw [hleft] at hkind
      cases hright : readPieces other [] (slashParts other.toList) with
      | error fault =>
          rw [hright] at hkind
          exact Or.inl ⟨error, fault, rfl, rfl, Except.error.inj hkind⟩
      | ok segments =>
          rw [hright] at hkind
          contradiction
  | ok segments =>
      rw [hleft] at hkind
      cases hright : readPieces other [] (slashParts other.toList) with
      | error fault =>
          rw [hright] at hkind
          contradiction
      | ok same =>
          rw [hright] at hkind
          obtain rfl := Except.ok.inj hkind
          exact Or.inr ⟨segments, rfl, rfl⟩

end
end Pattern

/-! ## Registration -/

namespace Router

/-- Registrations of one pattern that is perhaps spelled differently: both are
refused and leave the same router, or both have the same number and leave
routers that differ in the template only. -/
inductive Registration.EndsAs (first second : Registration ε σ) : Prop where
  | refused {error other : RegistrationError}
      (hfirst : first.result = .error error)
      (hsecond : second.result = .error other)
      (hkind : error.kind = other.kind) (hrouter : first.router = second.router)
  | accepted {id : RouteId} {route other : Route (Entry ε σ)}
      (hfirst : first.result = .ok id) (hsecond : second.result = .ok id)
      (hroute : first.router.table.routes[id]? = some route)
      (hother : second.router.table.routes[id]? = some other)
      (hmethod : route.pattern.method = other.pattern.method)
      (hsegments : route.pattern.segments = other.pattern.segments)
      (hvalue : route.value = other.value)
      (hrouter : { first.router with table := second.router.table } =
        second.router)
      (htable : first.router.table.SameButTexts second.router.table)

theorem Registration.EndsAs.sameButTexts {first second : Registration ε σ}
    (hends : first.EndsAs second) :
    first.router.table.SameButTexts second.router.table := by
  cases hends with
  | refused hfirst hsecond hkind hrouter =>
      rw [hrouter]
      exact .refl _
  | accepted hfirst hsecond hroute hother hmethod hsegments hvalue hrouter
      htable => exact htable

/-- Templates with the same pieces are registered alike. -/
theorem register_endsAs (router : Router ε σ) {text other : String}
    (htext : text.toList.head? = some '/')
    (hother : other.toList.head? = some '/')
    (hpieces : slashParts text.toList = slashParts other.toList)
    (method : Option Method) (handlers : List (Handler ε σ)) :
    (router.register method text handlers).EndsAs
      (router.register method other handlers) := by
  unfold Router.register
  split_ifs with hempty
  · exact .refused rfl rfl rfl rfl
  rcases Pattern.compile_cases htext hother hpieces method with
    ⟨error, fault, hleft, hright, hkind⟩ | ⟨segments, hleft, hright⟩
  · rw [hleft, hright]
    exact .refused rfl rfl hkind rfl
  · rw [hleft, hright]
    dsimp only
    have hpatterns : (Pattern.mk text method segments).textless =
        (Pattern.mk other method segments).textless := rfl
    have hsame := RouteTable.SameButTexts.refl router.table
    generalize Entry.register handlers router.registry = numbered
    have hlast : ∀ pattern : Pattern,
        (router.table.push pattern numbered.1).routes[router.table.routes.size]? =
          some ⟨router.table.routes.size, pattern, numbered.1⟩ := by
      intro pattern
      rw [RouteTable.push_routes, Array.getElem?_push_size]
    rcases hsame.insert_cases hpatterns numbered.1 with
      ⟨error, fault, hfirst, hsecond, hkind⟩ | ⟨hfirst, hsecond⟩
    · rw [hfirst, hsecond]
      exact .refused rfl rfl hkind rfl
    · rw [hfirst, hsecond]
      exact .accepted rfl rfl (hlast _) (hlast _) rfl rfl rfl rfl
        (hsame.push hpatterns _)

end Router

namespace RouteGroup

section

variable {group : RouteGroup ε σ} {levels : List (String × List (Handler ε σ))}

theorem AddsUp.slashParts_join (hadds : group.AddsUp levels)
    (template : String) :
    slashParts (join group.base template).toList =
      (levels.flatMap (fun level => templatePieces level.1) ++
        templatePieces template).map String.toList := by
  rw [RouteGroup.slashParts_join, hadds.pieces]
  simp [templatePieces, Function.comp_def, List.map_flatMap]

theorem AddsUp.join_eq_empty_iff (hadds : group.AddsUp levels)
    (template : String) :
    join group.base template = "" ↔ template = "" ∧
      levels.flatMap (fun level => templatePieces level.1) ++
        templatePieces template = [] := by
  have hparts := hadds.slashParts_join template
  constructor
  · intro hempty
    rw [hempty] at hparts
    refine ⟨(RouteGroup.join_eq_empty_iff.mp hempty).2, ?_⟩
    simpa using hparts.symm
  · rintro ⟨rfl, hnone⟩
    rw [hnone, RouteGroup.slashParts_join] at hparts
    have hbase := hadds.isBase.empty (by simpa using hparts)
    exact RouteGroup.join_eq_empty_iff.mpr ⟨hbase, rfl⟩

end

/-- A route that is registered through groups ends as the one that is
registered directly with the pieces of the bases, outermost first, and of the
template, and with the middleware of the groups before its handlers.  Requests
and patterns find the same routes in both routers.  Only an empty template
without a piece in the bases is refused. -/
theorem register_innermost (base : String) (own : List (Handler ε σ))
    (inner : List (String × List (Handler ε σ))) (router : Router ε σ)
    (method : Option Method) (template : String)
    {handlers : List (Handler ε σ)} (hne : handlers ≠ []) :
    let levels := (base, own) :: inner
    let pieces := levels.flatMap (fun level => templatePieces level.1) ++
      templatePieces template
    let grouped :=
      (innermost base own inner).register router method template handlers
    let direct := router.register method ("/" ++ "/".intercalate pieces)
      (levels.flatMap Prod.snd ++ handlers)
    (template = "" ∧ pieces = [] →
      grouped.result = .error (.route (.pattern .emptyTemplate)) ∧
        grouped.router = router) ∧
    (¬(template = "" ∧ pieces = []) →
      grouped.EndsAs direct ∧
      (∀ asked target captures,
        (grouped.router.table.lookup asked target captures).1.over
            Route.textless =
          (direct.router.table.lookup asked target captures).1.over
            Route.textless ∧
        (grouped.router.table.lookup asked target captures).2 =
          (direct.router.table.lookup asked target captures).2) ∧
      ∀ pattern,
        (grouped.router.table.conflicting pattern).map Route.textless =
          (direct.router.table.conflicting pattern).map Route.textless) := by
  intro levels pieces grouped direct
  have hadds : (innermost base own inner).AddsUp levels :=
    addsUp_innermost base own inner
  have hgrouped : grouped = router.register method
      (join (innermost base own inner).base template)
      (levels.flatMap Prod.snd ++ handlers) := by
    simp only [grouped, RouteGroup.register]
    rw [if_neg (by simpa using hne), hadds.middleware]
  constructor
  · intro hempty
    rw [hgrouped, (hadds.join_eq_empty_iff template).mpr hempty]
    unfold Router.register
    rw [if_neg (by simp [hne])]
    exact ⟨rfl, rfl⟩
  · intro hsome
    have hfull := (hadds.join_eq_empty_iff template).not.mpr hsome
    have hpieces : ∀ piece ∈ pieces, IsPiece piece := by
      intro piece hmem
      rcases List.mem_append.mp hmem with hbase | htemplate
      · obtain ⟨level, _, hlevel⟩ := List.mem_flatMap.mp hbase
        exact isPiece_of_mem_templatePieces hlevel
      · exact isPiece_of_mem_templatePieces htemplate
    have hends : grouped.EndsAs direct := by
      rw [hgrouped]
      apply router.register_endsAs (head?_join hadds.isBase hfull)
      · simp
      · rw [hadds.slashParts_join, slashParts_slash_intercalate hpieces]
    exact ⟨hends, hends.sameButTexts.lookup,
      fun pattern => hends.sameButTexts.conflicting rfl⟩

theorem register_innermost_users :
    [(.notFound : Handler Unit Unit)] ≠ [] ∧
      ((innermost "api//" [.methodNotAllowed] [("", []), ("/v1/", [])]).register
        (.ofSettings .default) (some .get) "users/:id"
          [(.notFound : Handler Unit Unit)]).EndsAs
      (Router.register (.ofSettings .default) (some .get) "/api/v1/users/:id"
        [.methodNotAllowed, .notFound]) := by
  have hne : [(.notFound : Handler Unit Unit)] ≠ [] := List.cons_ne_nil _ _
  have hregister := register_innermost "api//" [.methodNotAllowed]
    [("", []), ("/v1/", [])] (.ofSettings .default) (some .get) "users/:id" hne
  exact ⟨hne, (hregister.2 (by decide)).1⟩

/-- A template of slashes alone is not empty. -/
example : (((innermost "//" [] []).register (.ofSettings .default) none "/"
    [(.notFound : Handler Unit Unit)]).result,
    ((innermost "//" [] []).register (.ofSettings .default) none ""
      [(.notFound : Handler Unit Unit)]).result) =
    (.ok 0, .error (.route (.pattern .emptyTemplate))) := by
  decide

end RouteGroup
end Dispatch
