import HighlightGrammar.Proofs.Inlining

/-!
# Writing in place ends

References may lead around in circles, but a mode is written with its references only while it is not open, and it
is open for all that stands inside of it.  So on no path through what is written does a mode come twice with its
references, modes are nested at most one deeper than there are modes that are not open, and that many calls inside one
another are enough to write them.
-/

namespace HighlightGrammar

open Swift (Expr)

variable {n : Nat}

/-! ## Nested modes in an expression -/

namespace Swift.Expr

mutual

/-- How many modes stand inside one another in an expression. -/
def modeDepth : Expr → Nat
  | .atom _ | .literal _ => 0
  | .entry key value => max key.modeDepth value.modeDepth
  | .list items => modeDepths items
  | .call callee arguments => (if callee = "Mode" then 1 else 0) + modeDepths arguments

def modeDepths : List Expr → Nat
  | [] => 0
  | e :: rest => max e.modeDepth (modeDepths rest)

end

def optionDepth (option : Option Expr) : Nat := (option.map modeDepth).getD 0

theorem modeDepths_le {es : List Expr} {depth : Nat} : modeDepths es ≤ depth ↔ ∀ e ∈ es, e.modeDepth ≤ depth := by
  induction es with
  | nil => simp [modeDepths]
  | cons e rest ih => simp only [modeDepths, Nat.max_le, List.forall_mem_cons, ih]

theorem modeDepths_eq_zero {es : List Expr} : modeDepths es = 0 ↔ ∀ e ∈ es, e.modeDepth = 0 := by
  simp only [← Nat.le_zero, modeDepths_le]

/-- The depth of arguments some of which may be left out. -/
theorem modeDepths_given (options : List (Option Expr)) :
    modeDepths (options.filterMap id) = (options.map optionDepth).foldr max 0 := by
  induction options with
  | nil => rfl
  | cons option rest ih =>
    cases option with
    | none => simpa [optionDepth] using ih
    | some e => simpa [optionDepth, modeDepths] using congrArg (max e.modeDepth) ih

@[simp] theorem optionDepth_argument? (label : String) (value : Option Expr) :
    optionDepth (argument? label value) = optionDepth value := by
  cases value <;> simp [argument?, optionDepth, modeDepth]

@[simp] theorem optionDepth_flag? (label : String) (value : Bool) : optionDepth (flag? label value) = 0 := by
  cases value <;> simp [flag?, optionDepth, modeDepth]

@[simp] theorem optionDepth_nonEmptyList? (items : List Expr) : optionDepth (nonEmptyList? items) = modeDepths items := by
  cases items <;> simp [nonEmptyList?, optionDepth, modeDepth, modeDepths]

@[simp] theorem optionDepth_literals? (texts : List String) : optionDepth (literals? texts) = 0 := by
  simp [literals?, modeDepths_eq_zero, modeDepth]

theorem optionDepth_map {f : Expr → Expr} (same : ∀ e, (f e).modeDepth = e.modeDepth) (option : Option Expr) :
    optionDepth (option.map f) = optionDepth option := by
  cases option <;> simp [optionDepth, same]

theorem optionDepth_map_eq_zero {α : Type} {f : α → Expr} (flat : ∀ a, (f a).modeDepth = 0) (option : Option α) :
    optionDepth (option.map f) = 0 := by
  cases option <;> simp [optionDepth, flat]

end Swift.Expr

/-! ## Attributes hold no modes -/

section Attributes

open Swift.Expr

theorem Pattern.modeDepth_expr (p : Pattern) : p.expr.modeDepth = 0 := by simp [expr, modeDepth, modeDepths]

theorem Keywords.modeDepth_expr (k : Keywords) : k.expr.modeDepth = 0 := by
  have custom : modeDepths k.customEntries = 0 := by
    rw [modeDepths_eq_zero]
    simp only [customEntries, List.mem_filterMap, Option.map_eq_some_iff]
    rintro e ⟨words, -, listed, given, same⟩
    have flat := optionDepth_literals? words.2
    rw [given] at flat
    simpa [← same, modeDepth, optionDepth] using flat
  have arguments : modeDepths k.arguments = 0 := by
    rw [arguments, modeDepths_given]
    simp [optionDepth_map_eq_zero Pattern.modeDepth_expr, custom]
  unfold expr
  split <;> simp [modeDepth, modeDepths, arguments]

theorem Scope.modeDepth_expr (s : Scope) : s.expr.modeDepth = 0 := by
  cases s with
  | simple name => simp [expr, modeDepth, modeDepths]
  | indexed groups =>
    have flat : modeDepths (groups.entries.map fun e => .entry (.atom (toString e.1.toNat)) (.literal e.2)) = 0 := by
      rw [modeDepths_eq_zero, List.forall_mem_map]
      simp [modeDepth]
    simp only [expr, modeDepth, modeDepths, flat]
    decide

theorem SubLanguage.optionDepth_expr? (s : SubLanguage) : optionDepth s.expr? = 0 := by
  cases s with
  | single name => by_cases empty : name = "" <;> simp [expr?, empty, optionDepth, modeDepth, modeDepths]
  | multiple names =>
    rw [expr?, optionDepth_map (by simp [modeDepth, modeDepths]), optionDepth_literals?]

theorem Attributes.optionDepth_keywordsExpr? (a : Attributes) : optionDepth a.keywordsExpr? = 0 := by
  unfold keywordsExpr?
  split
  next k given => simp [optionDepth, k.modeDepth_expr]
  next =>
    split
    · rw [optionDepth_map (by simp [modeDepth, modeDepths]), optionDepth_literals?]
    · rfl

/-- A mode is one deeper than the deepest of its references. -/
theorem Attributes.modeDepth_expr (a : Attributes) (links : Links) : (a.expr links).modeDepth =
    1 + max (optionDepth links.contains) (max (optionDepth links.variants) (optionDepth links.starts)) := by
  have subLanguage : optionDepth (a.subLanguage.bind (·.expr?)) = 0 := by
    cases a.subLanguage with
    | none => rfl
    | some s => exact s.optionDepth_expr?
  have literals (text : Option String) : optionDepth (text.map .literal) = 0 :=
    optionDepth_map_eq_zero (fun _ => by simp [modeDepth]) text
  have relevance : optionDepth (a.relevance.map fun r => .atom (toString r)) = 0 :=
    optionDepth_map_eq_zero (fun _ => by simp [modeDepth]) a.relevance
  rw [expr, modeDepth, if_pos rfl, arguments, modeDepths_given]
  simp only [List.map_cons, List.map_nil, List.foldr_cons, List.foldr_nil, optionDepth_argument?, optionDepth_flag?,
    optionDepth_keywordsExpr?, optionDepth_map_eq_zero Pattern.modeDepth_expr,
    optionDepth_map_eq_zero Scope.modeDepth_expr, subLanguage, literals, relevance, Nat.zero_max, Nat.max_zero]

theorem Attributes.modeDepth_expr_ofParts (a : Attributes) (contains variants : List Expr) (starts : Option Expr) :
    (a.expr (.ofParts contains variants starts)).modeDepth =
      1 + max (modeDepths contains) (max (modeDepths variants) (optionDepth starts)) := by
  rw [modeDepth_expr, Links.ofParts, optionDepth_nonEmptyList?, optionDepth_map (by simp [modeDepth, modeDepths]),
    optionDepth_nonEmptyList?, optionDepth_map (by simp [modeDepth, modeDepths])]

end Attributes

namespace Expansion

open Swift.Expr

theorem modeDepth_inlineExpr_le (modes : Modes n) (opened : OpenModes) (mode : Fin n) :
    (inlineExpr modes opened mode).modeDepth ≤ 1 + OpenModes.closedCount n opened := by
  fun_induction inlineExpr modes opened mode with
  | case1 opened mode closed ih =>
    -- The mode is open for what stands inside of it, so there is one mode less to go down to.
    have below (ref : Ref n) : (inlineExpr modes (opened.insert mode.val) (ref.resolve mode)).modeDepth ≤
        OpenModes.closedCount n opened := by
      have fewer := OpenModes.closedCount_insert_lt closed
      have inside := ih ref
      omega
    have contains : modeDepths ((modes.get mode).contains.map fun ref =>
        if ref.target? mode = none then .atom ".self"
        else .call ".mode" [inlineExpr modes (opened.insert mode.val) (ref.resolve mode)]) ≤
          OpenModes.closedCount n opened := by
      rw [modeDepths_le, List.forall_mem_map]
      intro ref _
      split
      · simp [modeDepth]
      · simpa [modeDepth, modeDepths] using below ref
    have variants : modeDepths ((modes.get mode).variants.map fun ref =>
        inlineExpr modes (opened.insert mode.val) (ref.resolve mode)) ≤ OpenModes.closedCount n opened := by
      rw [modeDepths_le, List.forall_mem_map]
      exact fun ref _ => below ref
    have starts : optionDepth ((modes.get mode).starts.map fun ref =>
        inlineExpr modes (opened.insert mode.val) (ref.resolve mode)) ≤ OpenModes.closedCount n opened := by
      cases (modes.get mode).starts with
      | none => exact Nat.zero_le _
      | some ref => exact below ref
    rw [Attributes.modeDepth_expr_ofParts]
    omega
  | case2 opened mode again =>
    rw [Attributes.modeDepth_expr]
    exact Nat.le_add_right 1 _

/-! ## Paths -/

/-- From a tree down to a part without parts. -/
inductive Path : Expansion n → List (Expansion n) → Prop where
  | leaf {e : Expansion n} (bare : ∀ relation, e.parts relation = []) : Path e [e]
  | inner {e part : Expansion n} {relation : Relation} {below : List (Expansion n)}
      (member : part ∈ e.parts relation) (path : Path part below) : Path e (e :: below)

/-- The mode that is written with all its references. -/
def fullMode? : Expansion n → Option (Fin n)
  | .full mode _ _ _ => some mode
  | _ => none

theorem fullMode?_of_path_itself {path : List (Expansion n)} (isPath : Path .itself path) :
    path.filterMap fullMode? = [] := by
  cases isPath with
  | leaf => rfl
  | inner member => simp [parts] at member

theorem mem_parts_unfolded {modes : Modes n} {opened : OpenModes} {mode : Fin n} {relation : Relation}
    {part : Expansion n} (member : part ∈ (unfolded modes opened mode).parts relation) : mode.val ∉ opened ∧
      (part = .itself ∨ ∃ target, part = unfolded modes (opened.insert mode.val) target) := by
  rw [unfolded] at member
  split at member
  next closed =>
    refine ⟨closed, ?_⟩
    rw [parts_node, List.mem_mapIdx] at member
    obtain ⟨position, inside, rfl⟩ := member
    split
    next => exact Or.inl rfl
    next => exact Or.inr ⟨_, rfl⟩
  next => simp [parts] at member

theorem fullMode?_unfolded (modes : Modes n) {opened : OpenModes} {mode : Fin n} (closed : mode.val ∉ opened) :
    (unfolded modes opened mode).fullMode? = some mode := by
  rw [unfolded_of_closed modes closed, fullMode?]

theorem fullMode?_of_open (modes : Modes n) {opened : OpenModes} {mode : Fin n} (again : ¬ mode.val ∉ opened) :
    (unfolded modes opened mode).fullMode? = none := by
  rw [unfolded, dif_neg again]
  rfl

/-- On a path no mode comes twice with its references, and none that was open before. -/
theorem nodup_of_path {modes : Modes n} {opened : OpenModes} {mode : Fin n} {path : List (Expansion n)}
    (isPath : Path (unfolded modes opened mode) path) : (path.filterMap fullMode?).Nodup ∧
      ∀ other ∈ path.filterMap fullMode?, other.val ∉ opened := by
  generalize root : unfolded modes opened mode = e at isPath
  induction isPath generalizing opened mode with
  | leaf bare =>
    subst root
    by_cases closed : mode.val ∉ opened
    · simpa [fullMode?_unfolded modes closed] using closed
    · simp [fullMode?_of_open modes closed]
  | @inner e part relation below member isPath ih =>
    subst root
    obtain ⟨closed, written⟩ := mem_parts_unfolded member
    rw [List.filterMap_cons_some (fullMode?_unfolded modes closed)]
    cases written with
    | inl marker =>
      subst marker
      rw [fullMode?_of_path_itself isPath]
      simpa using closed
    | inr inside =>
      -- What is below was written while this mode was open.
      obtain ⟨target, rfl⟩ := inside
      obtain ⟨unique, fresh⟩ := ih rfl
      refine ⟨List.nodup_cons.2 ⟨fun again => fresh mode again (by simp), unique⟩, List.forall_mem_cons.2 ⟨closed, ?_⟩⟩
      intro other member opened
      exact fresh other member (by simp [opened])

/-! ## Calls inside one another -/

/-- Write a mode in place with so many calls inside one another and no more.  The open modes are kept in one place for
all calls. -/
def inPlaceWithin (modes : Modes n) : Nat → Fin n → StateT OpenModes Option (Expansion n)
  | 0, _ => failure
  | calls + 1, mode => do
    if mode.val ∈ (← get) then
      return .shallow mode
    modify (·.insert mode.val)
    let contains ← (modes.get mode).contains.mapM fun ref =>
      if ref.target? mode = none then pure .itself else inPlaceWithin modes calls (ref.resolve mode)
    let variants ← (modes.get mode).variants.mapM fun ref => inPlaceWithin modes calls (ref.resolve mode)
    let starts ← (modes.get mode).starts.mapM fun ref => inPlaceWithin modes calls (ref.resolve mode)
    modify (·.erase mode.val)
    return .full mode contains variants starts

theorem run_mapM {α β σ : Type} {f : α → StateT σ Option β} {g : α → β} {state : σ}
    (gives : ∀ a, (f a).run state = some (g a, state)) (elements : List α) :
    (elements.mapM f).run state = some (elements.map g, state) := by
  induction elements with
  | nil => rfl
  | cons head rest ih => simp [List.mapM_cons, gives, ih]

theorem run_mapM_option {α β σ : Type} {f : α → StateT σ Option β} {g : α → β} {state : σ}
    (gives : ∀ a, (f a).run state = some (g a, state)) (element : Option α) :
    (element.mapM f).run state = some (element.map g, state) := by
  cases element with
  | none => rfl
  | some a => simp [gives]

theorem run_inPlaceWithin (modes : Modes n) {calls : Nat} {opened : OpenModes}
    (enough : OpenModes.closedCount n opened < calls) (mode : Fin n) :
    (inPlaceWithin modes calls mode).run opened = some (unfolded modes opened mode, opened) := by
  induction calls generalizing opened mode with
  | zero => exact absurd enough (Nat.not_lt_zero _)
  | succ calls ih =>
    by_cases closed : mode.val ∉ opened
    · have fewer := OpenModes.closedCount_insert_lt closed
      have inside (target : Fin n) : (inPlaceWithin modes calls target).run (opened.insert mode.val) =
          some (unfolded modes (opened.insert mode.val) target, opened.insert mode.val) := ih (by omega) target
      have entries := fun ref : Ref n => inside (ref.resolve mode)
      have members (ref : Ref n) :
          (if ref.target? mode = none then pure .itself
            else inPlaceWithin modes calls (ref.resolve mode) : StateT OpenModes Option (Expansion n)).run
              (opened.insert mode.val) =
          some (if ref.IsMarker mode .contains then .itself
            else unfolded modes (opened.insert mode.val) (ref.resolve mode), opened.insert mode.val) := by
        by_cases own : ref.target? mode = none
        · simp [own, Ref.IsMarker]
        · simp [own, Ref.IsMarker, entries]
      rw [unfolded_of_closed modes closed, inPlaceWithin]
      simp [closed, run_mapM members, run_mapM entries, run_mapM_option entries, SortedSet.erase_insert closed]
    · rw [unfolded, dif_neg closed]
      simp [inPlaceWithin, not_not.1 closed]

/-- However the references lead, a mode is written in place with one call more inside one another than there are modes
that are not open, its modes are nested no deeper than that, and on every path those with references are new and
differ. -/
theorem inPlace_bounded (modes : Modes n) (mode : Fin n) (opened : OpenModes) :
    (∀ calls, OpenModes.closedCount n opened < calls → (inPlaceWithin modes calls mode).run opened =
      some ((inPlace modes mode opened).value, (inPlace modes mode opened).after)) ∧
    ((inPlace modes mode opened).value.expr modes).modeDepth ≤ 1 + OpenModes.closedCount n opened ∧
    ∀ path, Path (inPlace modes mode opened).value path → (path.filterMap fullMode?).Nodup ∧
      ∀ other ∈ path.filterMap fullMode?, other.val ∉ opened := by
  obtain ⟨value, after⟩ := inPlace_gives modes mode opened
  rw [value, after]
  refine ⟨fun calls enough => run_inPlaceWithin modes enough mode, ?_, fun path => nodup_of_path⟩
  rw [expr_unfolded]
  exact modeDepth_inlineExpr_le modes opened mode

end Expansion

end HighlightGrammar
