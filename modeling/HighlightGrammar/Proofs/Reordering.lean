import HighlightGrammar.Generate.Text
import HighlightGrammar.Proofs.Cycles
import HighlightGrammar.Proofs.Inlining
import HighlightGrammar.Proofs.Naming
import HighlightGrammar.Proofs.ValidationOrder
import Mathlib.Logic.Equiv.Fin.Basic
import Mathlib.Logic.Equiv.Option

/-!
# Modes in another order

Positions serve as identities: of the open modes, in references, in the keys of edges and to decide between modes that
are otherwise alike.  Still no text depends on them.  What is written in place of a mode stays the same when all modes
are moved and the references follow them; and where the references form no cycle, so do all declarations, of which only
the order can change.
-/

namespace HighlightGrammar

open Swift (Expr)

variable {n : Nat}

/-! ## Moving modes -/

/-- The reference after every mode has been moved to the position that `σ` gives it. -/
def Ref.moved (σ : Equiv.Perm (Fin n)) : Ref n → Ref n
  | .itself => .itself
  | .mode index => .mode (σ index)

namespace Ref

variable (σ : Equiv.Perm (Fin n)) (owner : Fin n) (ref : Ref n)

theorem target?_moved : (ref.moved σ).target? (σ owner) = (ref.target? owner).map σ := by
  cases ref with
  | itself => rfl
  | mode index => by_cases same : index = owner <;> simp [moved, target?, same]

theorem resolve_moved : (ref.moved σ).resolve (σ owner) = σ (ref.resolve owner) := by
  rw [resolve, resolve, target?_moved]
  cases ref.target? owner with
  | none => rfl
  | some target => rfl

theorem isMarker_moved (relation : Relation) :
    (ref.moved σ).IsMarker (σ owner) relation ↔ ref.IsMarker owner relation := by
  rw [IsMarker, IsMarker, target?_moved, Option.map_eq_none_iff]

end Ref

/-- The mode with references that follow the modes to their positions. -/
def Mode.moved (σ : Equiv.Perm (Fin n)) (mode : Mode n) : Mode n :=
  { mode with
    contains := mode.contains.map (Ref.moved σ)
    variants := mode.variants.map (Ref.moved σ)
    starts := mode.starts.map (Ref.moved σ) }

theorem Mode.refs_moved (σ : Equiv.Perm (Fin n)) (mode : Mode n) (relation : Relation) :
    (mode.moved σ).refs relation = (mode.refs relation).map (Ref.moved σ) := by
  cases relation with
  | contains | variants => rfl
  | starts => cases start : mode.starts <;> simp [moved, refs, start]

/-- The modes at the positions that `σ` gives them. -/
def Modes.moved (σ : Equiv.Perm (Fin n)) (modes : Modes n) : Modes n :=
  Vector.ofFn fun position => (modes.get (σ.symm position)).moved σ

@[simp] theorem Modes.get_moved (σ : Equiv.Perm (Fin n)) (modes : Modes n) (mode : Fin n) :
    (modes.moved σ).get (σ mode) = (modes.get mode).moved σ := by
  simp [moved]

/-- The open modes by their positions after the move.  Numbers that belong to no mode stay as they are. -/
def OpenModes.moved (σ : Equiv.Perm (Fin n)) (opened : OpenModes) : OpenModes :=
  .ofList (opened.elements.map fun position =>
    if inside : position < n then (σ ⟨position, inside⟩).val else position)

theorem OpenModes.mem_moved (σ : Equiv.Perm (Fin n)) {opened : OpenModes} {mode : Fin n} :
    (σ mode).val ∈ opened.moved σ ↔ mode.val ∈ opened := by
  rw [moved, SortedSet.mem_ofList, List.mem_map]
  constructor
  · rintro ⟨position, member, same⟩
    split at same
    next inside =>
      obtain rfl : ⟨position, inside⟩ = mode := σ.injective (Fin.ext same)
      exact member
    next outside => exact absurd (same ▸ (σ mode).isLt) outside
  · intro member
    exact ⟨mode.val, member, by simp⟩

/-! ## Modes in place -/

namespace Expansion

theorem inlineExpr_moved (σ : Equiv.Perm (Fin n)) (modes : Modes n) {opened others : OpenModes}
    (same : ∀ mode : Fin n, (σ mode).val ∈ others ↔ mode.val ∈ opened) (mode : Fin n) :
    inlineExpr (modes.moved σ) others (σ mode) = inlineExpr modes opened mode := by
  -- Along the expansion the open modes grow on both sides by the same mode.
  fun_induction inlineExpr modes opened mode generalizing others with
  | case1 opened mode closed ih =>
    have closedThere : (σ mode).val ∉ others := fun inside => closed ((same mode).1 inside)
    have inside : ∀ other : Fin n, (σ other).val ∈ others.insert (σ mode).val ↔ other.val ∈ opened.insert mode.val := by
      intro other
      rw [SortedSet.mem_insert, SortedSet.mem_insert, same, Fin.val_inj, Fin.val_inj, σ.apply_eq_iff_eq]
    rw [inlineExpr, dif_pos closedThere, Modes.get_moved]
    simp only [Mode.moved, List.map_map, Option.map_map, Function.comp_def, Ref.target?_moved, Ref.resolve_moved,
      Option.map_eq_none_iff, ih _ inside]
  | case2 opened mode again =>
    have againThere : ¬ (σ mode).val ∉ others := fun closed => again fun inside => closed ((same mode).2 inside)
    rw [inlineExpr, dif_neg againThere, Modes.get_moved]
    rfl

/-! ## Declarations -/

section Declarations

variable (σ : Equiv.Perm (Fin n)) (modes : Modes n) {breaks others : BreakSet}
  (same : ∀ (owner : Fin n) relation position,
    (⟨σ owner, relation, position⟩ : EdgeKey) ∈ others ↔ (⟨owner, relation, position⟩ : EdgeKey) ∈ breaks)

include same

/-- A reference is written alike: as the marker, by name, or in place. -/
theorem expr_declaredPart_moved (owner : Fin n) (relation : Relation) (position : Nat) (ref : Ref n) :
    (declaredPart (modes.moved σ) others (σ owner) relation position (ref.moved σ)).expr (modes.moved σ) =
      (declaredPart modes breaks owner relation position ref).expr modes := by
  have named : (ref.moved σ).ByName others (σ owner) relation position ↔ ref.ByName breaks owner relation position := by
    rw [Ref.ByName, Ref.ByName, Ref.target?_moved, Option.isSome_map, same]
  rw [declaredPart, declaredPart, Ref.resolve_moved]
  simp only [Ref.isMarker_moved, named]
  by_cases marker : ref.IsMarker owner relation
  · rw [if_pos marker, if_pos marker, expr, expr]
  · rw [if_neg marker, if_neg marker]
    by_cases byName : ref.ByName breaks owner relation position
    · rw [if_pos byName, if_pos byName, expr, expr, Modes.get_moved]
      rfl
    · rw [if_neg byName, if_neg byName, expr_unfolded, expr_unfolded]
      exact inlineExpr_moved σ modes (fun mode => by simp) (ref.resolve owner)

theorem declarationText_moved (mode : Fin n) :
    Swift.declarationText (modes.moved σ) others (σ mode) = Swift.declarationText modes breaks mode := by
  have items : (((modes.get mode).moved σ).items (σ mode) fun relation position ref =>
        (declaredPart (modes.moved σ) others (σ mode) relation position ref).expr (modes.moved σ)) =
      (modes.get mode).items mode fun relation position ref =>
        (declaredPart modes breaks mode relation position ref).expr modes := by
    funext relation
    simp only [Mode.items, Mode.refs_moved, map_eq_mapIdx, List.mapIdx_mapIdx, Function.comp_def, Ref.isMarker_moved,
      expr_declaredPart_moved σ modes same]
  rw [Swift.declarationText, Swift.declarationText, expr_declaration, expr_declaration, Modes.get_moved, items]
  rfl

end Declarations

end Expansion

/-! ## Cycles -/

section Cycles

variable {modes : Modes n}

theorem Modes.leads_moved (σ : Equiv.Perm (Fin n)) {source target : Fin n} :
    (Graph.ofModes (modes.moved σ)).Leads (σ source) (σ target) ↔ (Graph.ofModes modes).Leads source target := by
  rw [Graph.leads_ofModes, Graph.leads_ofModes, Modes.Refers, Modes.Refers]
  simp only [Modes.get_moved, Mode.refs_moved, List.mem_map, exists_exists_and_eq_and, Ref.target?_moved,
    Option.map_eq_some_iff, σ.apply_eq_iff_eq, exists_eq_right]

/-- Without cycles no edge is followed by a way back. -/
theorem Graph.acyclic_iff : (∀ edges, ¬ (ofModes modes).IsCycle edges) ↔
    ∀ source target, (ofModes modes).Leads source target → ¬ (ofModes modes).Reaches target source := by
  constructor
  · intro acyclic source target leads back
    obtain ⟨edge, leaves, rfl⟩ := leads_iff.1 leads
    obtain ⟨rfl, -⟩ := mem_edgesFrom_ofModes.1 leaves
    obtain ⟨edges, cycle, -⟩ := exists_cycle (mem_edges.2 ⟨_, leaves⟩) back
    exact acyclic edges cycle
  · rintro noWayBack edges ⟨proper, node, walk⟩
    cases walk with
    | nil => exact proper rfl
    | @cons edge rest _ member after =>
      have spared : BreakSet.Spares ∅ rest := fun _ _ => SortedSet.not_mem_empty
      have back := Relation.ReflTransGen.mono (fun _ _ => Depends.leads) _ _ (after.depends spared)
      exact noWayBack _ _ (leads_iff.2 ⟨edge, mem_edges_ofModes.1 member, rfl⟩) back

theorem Modes.acyclic_moved (σ : Equiv.Perm (Fin n)) (acyclic : ∀ edges, ¬ (Graph.ofModes modes).IsCycle edges) :
    ∀ edges, ¬ (Graph.ofModes (modes.moved σ)).IsCycle edges := by
  rw [Graph.acyclic_iff] at acyclic ⊢
  intro source target leads back
  obtain ⟨source, rfl⟩ := σ.surjective source
  obtain ⟨target, rfl⟩ := σ.surjective target
  have here (a b : Fin n) (leads : (Graph.ofModes (modes.moved σ)).Leads a b) :
      (Graph.ofModes modes).Leads (σ.symm a) (σ.symm b) := by
    rwa [← leads_moved σ, σ.apply_symm_apply, σ.apply_symm_apply]
  -- The way back among the moved modes is one among the modes where they were.
  have backHere : (Graph.ofModes modes).Reaches (σ.symm (σ target)) (σ.symm (σ source)) :=
    Relation.ReflTransGen.lift σ.symm here _ _ back
  rw [σ.symm_apply_apply, σ.symm_apply_apply] at backHere
  exact acyclic source target ((leads_moved σ).1 leads) backHere

theorem BreakSet.notMem_of_acyclic (acyclic : ∀ edges, ¬ (Graph.ofModes modes).IsCycle edges) (key : EdgeKey) :
    key ∉ ofModes modes := by
  intro broken
  obtain ⟨edge, member, -, back, -⟩ := mem_ofModes.1 broken
  obtain ⟨edges, cycle, -⟩ := Graph.exists_cycle member back
  exact acyclic edges cycle

end Cycles

/-! ## Grammars -/

/-- The language with references that follow the modes to their positions. -/
def Language.moved (σ : Equiv.Perm (Fin n)) (language : Language n) : Language n :=
  { language with contains := language.contains.map (Ref.moved σ) }

theorem Language.arguments_moved (σ : Equiv.Perm (Fin n)) (language : Language n) (modes : Modes n) (lang : String) :
    (language.moved σ).arguments (modes.moved σ) lang = language.arguments modes lang := by
  have members : memberExpr (modes.moved σ) ∘ Ref.moved σ = memberExpr modes := by
    funext ref
    cases ref with
    | itself => rfl
    | mode index =>
      simp only [Function.comp_apply, Ref.moved, memberExpr, Modes.get_moved]
      rfl
  rw [arguments, arguments, Language.moved, List.map_map, members]

/-- The declarations stand between lines that depend on nothing but the arguments of the language. -/
theorem Swift.exists_fileLines_eq (lang register : String) (arguments : List Expr) :
    ∃ opening closing : List String, ∀ (grammar : Grammar) (plan : Plan grammar.size),
      grammar.language.arguments grammar.modes lang = arguments →
      fileLines grammar plan lang register =
        opening ++ (plan.schedule.order.map (declarationLines grammar.modes plan.breaks)).flatten ++ closing := by
  apply Exists.intro
  apply Exists.intro
  intro grammar plan same
  rw [fileLines, same, List.flatMap_def, List.append_assoc, List.append_assoc]

namespace Grammar

/-- The grammar with its modes in another order. -/
def reordered (grammar : Grammar) (σ : Equiv.Perm (Fin grammar.size)) : Grammar where
  size := grammar.size
  version := grammar.version
  language := grammar.language.moved σ
  modes := grammar.modes.moved σ

/-- No two modes have one name. -/
def Distinct (grammar : Grammar) : Prop := Function.Injective fun mode : Fin grammar.size => (grammar.modes.get mode).id

/-- The lines that declare the modes, mode by mode in the planned order. -/
def declarations (grammar : Grammar) : List (List String) :=
  (Plan.ofModes grammar.modes).schedule.order.map
    (Swift.declarationLines grammar.modes (Plan.ofModes grammar.modes).breaks)

/-- The files of two grammars differ in the order of the declarations at most, and modes of one name are declared by
one expression. -/
structure SameUpToOrder (grammar other : Grammar) : Prop where
  expressions : ∀ mode counterpart, (other.modes.get counterpart).id = (grammar.modes.get mode).id →
    Swift.declarationText other.modes (Plan.ofModes other.modes).breaks counterpart =
      Swift.declarationText grammar.modes (Plan.ofModes grammar.modes).breaks mode
  arguments : ∀ lang, other.language.arguments other.modes lang = grammar.language.arguments grammar.modes lang
  declarations : other.declarations.Perm grammar.declarations
  files : ∀ target : Target, ∃ opening closing : List String,
    target.render grammar (Plan.ofModes grammar.modes) =
      .ok ("\n".intercalate (opening ++ grammar.declarations.flatten ++ closing)) ∧
    target.render other (Plan.ofModes other.modes) =
      .ok ("\n".intercalate (opening ++ other.declarations.flatten ++ closing))

variable {grammar : Grammar}

section Acyclic

variable (acyclic : ∀ edges, ¬ (Graph.ofModes grammar.modes).IsCycle edges) (σ : Equiv.Perm (Fin grammar.size))

include acyclic

theorem expressions_reordered (mode : Fin grammar.size) :
    Swift.declarationText (grammar.modes.moved σ) (Plan.ofModes (grammar.modes.moved σ)).breaks (σ mode) =
      Swift.declarationText grammar.modes (Plan.ofModes grammar.modes).breaks mode := by
  apply Expansion.declarationText_moved
  intro owner relation position
  -- Neither plan breaks anything.
  exact iff_of_false (BreakSet.notMem_of_acyclic (Modes.acyclic_moved σ acyclic) _)
    (BreakSet.notMem_of_acyclic acyclic _)

theorem declarations_reordered : (grammar.reordered σ).declarations.Perm grammar.declarations := by
  have lines : Swift.declarationLines (grammar.modes.moved σ) (Plan.ofModes (grammar.modes.moved σ)).breaks ∘ σ =
      Swift.declarationLines grammar.modes (Plan.ofModes grammar.modes).breaks := by
    funext mode
    rw [Function.comp_apply, Swift.declarationLines, Swift.declarationLines, expressions_reordered acyclic,
      Modes.get_moved]
    rfl
  have order (modes : Modes grammar.size) : (Plan.ofModes modes).schedule.order.Perm (List.finRange grammar.size) :=
    Schedule.order_perm _ _
  have everyMode : (grammar.reordered σ).declarations.Perm (((List.finRange grammar.size).map σ).map
      (Swift.declarationLines (grammar.modes.moved σ) (Plan.ofModes (grammar.modes.moved σ)).breaks)) :=
    ((order _).trans (Equiv.Perm.map_finRange_perm σ).symm).map _
  rw [List.map_map, lines] at everyMode
  exact everyMode.trans ((order _).map _).symm

theorem sameUpToOrder_reordered (distinct : grammar.Distinct) : grammar.SameUpToOrder (grammar.reordered σ) where
  expressions mode counterpart named := by
    obtain ⟨found, rfl⟩ := σ.surjective counterpart
    have named : (grammar.modes.get found).id = (grammar.modes.get mode).id := by
      simpa [reordered, Mode.moved] using named
    obtain rfl : found = mode := distinct named
    exact expressions_reordered acyclic σ found
  arguments lang := grammar.language.arguments_moved σ grammar.modes lang
  declarations := declarations_reordered acyclic σ
  files target := by
    obtain ⟨opening, closing, lines⟩ :=
      Swift.exists_fileLines_eq target.lang target.register (grammar.language.arguments grammar.modes target.lang)
    refine ⟨opening, closing, ?_, ?_⟩
    · rw [Target.render_ofModes, Swift.fileText, lines grammar _ rfl]
      rfl
    · have arguments := grammar.language.arguments_moved σ grammar.modes target.lang
      rw [Target.render_ofModes, Swift.fileText, lines (grammar.reordered σ) _ arguments]
      rfl

end Acyclic

end Grammar

/-! ## Documents -/

/-- The positions that the elements of a list have after a permutation. -/
theorem exists_equiv_of_perm {α : Type} {l others : List α} (reordered : l.Perm others) :
    ∃ σ : Fin l.length ≃ Fin others.length, ∀ i, others.get (σ i) = l.get i := by
  induction reordered with
  | nil => exact ⟨Equiv.refl _, fun _ => rfl⟩
  | cons head _ ih =>
    obtain ⟨σ, same⟩ := ih
    -- The head keeps the first position, and the others are moved behind it.
    refine ⟨(finSuccEquiv _).trans (σ.optionCongr.trans (finSuccEquiv _).symm), fun i => ?_⟩
    refine Fin.cases rfl (fun i => ?_) i
    simpa using same i
  | swap first second rest =>
    refine ⟨Equiv.swap 0 1, fun i => ?_⟩
    refine Fin.cases rfl (fun i => Fin.cases rfl (fun i => ?_) i) i
    have apart : Equiv.swap 0 1 i.succ.succ = i.succ.succ :=
      Equiv.swap_apply_of_ne_of_ne (by simp) (by simp [Fin.ext_iff])
    rw [apart]
    rfl
  | trans _ _ first second =>
    obtain ⟨σ, sameFirst⟩ := first
    obtain ⟨τ, sameSecond⟩ := second
    exact ⟨σ.trans τ, fun i => (sameSecond (σ i)).trans (sameFirst i)⟩

theorem exists_perm_of_perm {α : Type} {v w : Vector α n} (reordered : v.toList.Perm w.toList) :
    ∃ σ : Equiv.Perm (Fin n), ∀ i, w.get (σ i) = v.get i := by
  obtain ⟨σ, same⟩ := exists_equiv_of_perm reordered
  have size (v : Vector α n) : v.toList.length = n := by simp
  refine ⟨(finCongr (size v)).symm.trans (σ.trans (finCongr (size w))), fun i => ?_⟩
  exact same _

namespace Grammar

section Names

variable {ids others : Vector String n} {σ : Equiv.Perm (Fin n)} (distinct : Function.Injective ids.get)
  (moved : ∀ i, others.get (σ i) = ids.get i)

include distinct moved

/-- A name that only one mode bears is found where that mode has been moved to. -/
theorem finIdxOf?_moved {target : String} {index : Fin n} (found : ids.finIdxOf? target = some index) :
    others.finIdxOf? target = some (σ index) := by
  have here : ids.get index = target := (finIdxOf?_eq_some.1 found).1
  refine finIdxOf?_eq_some.2 ⟨(moved index).trans here, fun earlier less again => ?_⟩
  obtain ⟨other, rfl⟩ := σ.surjective earlier
  obtain rfl : other = index := distinct (((moved other).symm.trans again).trans here.symm)
  exact Fin.lt_irrefl _ less

theorem readRef_moved {owner : Owner} {field : String} {value : Json} {ref : Ref n}
    (read : readRef ids owner field value = .ok ref) : readRef others owner field value = .ok (ref.moved σ) := by
  unfold readRef at read ⊢
  split at read
  next marker =>
    cases read
    rw [if_pos marker]
    rfl
  next unmarked =>
    rw [if_neg unmarked]
    cases named : value.getText? "ref" with
    | none => simp [named] at read
    | some target =>
      simp only [named] at read
      cases found : ids.finIdxOf? target with
      | none => simp [found] at read
      | some index =>
        simp only [found, Except.ok.injEq] at read
        simp only [finIdxOf?_moved distinct moved found, ← read]
        rfl

theorem loadRefs_moved {owner : Owner} {field : String} {value : Json} {refs : List (Ref n)}
    (read : loadRefs ids owner field value = .ok refs) :
    loadRefs others owner field value = .ok (refs.map (Ref.moved σ)) := by
  rw [loadRefs_eq_ok] at read ⊢
  obtain ⟨absent, rfl⟩ | ⟨items, present, each⟩ := read
  · exact .inl ⟨absent, rfl⟩
  · refine .inr ⟨items, present, ?_⟩
    rw [List.forall₂_map_right_iff]
    exact each.imp fun _ _ => readRef_moved distinct moved

theorem loadStarts_moved {owner : Owner} {value : Json} {starts : Option (Ref n)}
    (read : loadStarts ids owner value = .ok starts) :
    loadStarts others owner value = .ok (starts.map (Ref.moved σ)) := by
  rw [loadStarts_eq_ok] at read ⊢
  obtain ⟨absent, rfl⟩ | ⟨found, ref, present, first, rfl⟩ := read
  · exact .inl ⟨absent, rfl⟩
  · exact .inr ⟨found, ref.moved σ, present, readRef_moved distinct moved first, rfl⟩

theorem loadMode_moved {id : String} {value : Json} {mode : Mode n} (read : loadMode ids id value = .ok mode) :
    loadMode others id value = .ok (mode.moved σ) := by
  simp only [loadMode, bind_eq_ok] at read ⊢
  obtain ⟨starts, startsRead, attributes, attributesRead, contains, containsRead, variants, variantsRead, same⟩ := read
  cases same
  exact ⟨_, loadStarts_moved distinct moved startsRead, attributes, attributesRead, _,
    loadRefs_moved distinct moved containsRead, _, loadRefs_moved distinct moved variantsRead, rfl⟩

theorem loadLanguage_moved {value : Json} {language : Language n} (read : loadLanguage ids value = .ok language) :
    loadLanguage others value = .ok (language.moved σ) := by
  simp only [loadLanguage, bind_eq_ok] at read ⊢
  obtain ⟨keywords, keywordsRead, illegal, illegalRead, contains, containsRead, same⟩ := read
  cases same
  exact ⟨keywords, keywordsRead, illegal, illegalRead, _, loadRefs_moved distinct moved containsRead, rfl⟩

end Names

/-- A document with its modes in another order is loaded to the grammar with its modes in another order. -/
theorem load_reordered {document : Json} {items others : List Json} {grammar : Grammar}
    (found : document.get? "modes" = some (.list items)) (perm : items.Perm others)
    (loaded : load document = .ok grammar) (distinct : grammar.Distinct) :
    ∃ σ, load (document.withItems "modes" others) = .ok (grammar.reordered σ) := by
  obtain ⟨n, version, value, values, ids, modes, language, versionFound, valueFound, itemsRead, idsRead, modesRead,
    languageRead, rfl⟩ := load_eq_ok_iff.1 loaded
  obtain rfl : items = values.toList := Except.ok.inj ((modeValues_eq_ok found).symm.trans itemsRead)
  have size : others.toArray.size = n := by simp [← perm.length_eq]
  obtain ⟨σ, valuesMoved⟩ : ∃ σ : Equiv.Perm (Fin n), ∀ i, (Vector.mk others.toArray size).get (σ i) = values.get i :=
    exists_perm_of_perm perm
  obtain ⟨names, namesMoved⟩ : ∃ names : Vector String n, ∀ i, names.get (σ i) = ids.get i :=
    ⟨.ofFn fun i => ids.get (σ.symm i), by simp⟩
  -- The first mode with a name is the one that is referred to, so it matters that there is no second one.
  have unique : Function.Injective ids.get := by
    intro a b same
    rw [← id_of_loadMode (modesRead a), ← id_of_loadMode (modesRead b)] at same
    exact distinct same
  have reordered : modeValues (document.withItems "modes" others) = .ok others :=
    modeValues_eq_ok (Json.get?_withItems_self found)
  refine ⟨σ, load_eq_ok_iff.2 ⟨n, version, value, ⟨others.toArray, size⟩, names, modes.moved σ, language.moved σ,
    ?_, ?_, reordered, ?_, ?_, loadLanguage_moved unique namesMoved languageRead, rfl⟩⟩
  · rwa [Json.get?_withItems_of_ne (by decide)]
  · rwa [Json.get?_withItems_of_ne (by decide)]
  · intro i
    obtain ⟨i, rfl⟩ := σ.surjective i
    rw [valuesMoved, namesMoved, idsRead]
  · intro i
    obtain ⟨i, rfl⟩ := σ.surjective i
    rw [valuesMoved, namesMoved, Modes.get_moved]
    exact loadMode_moved unique namesMoved (modesRead i)

/-- Positions do not show: not in what is written in place, and without cycles not in the file either, but for the
order of the declarations. -/
theorem reordered_alike :
    (∀ (n : Nat) (modes : Modes n) (σ : Equiv.Perm (Fin n)) (mode : Fin n) (opened : OpenModes),
      ((Expansion.inPlace (modes.moved σ) (σ mode) (opened.moved σ)).value.expr (modes.moved σ)).render =
        ((Expansion.inPlace modes mode opened).value.expr modes).render) ∧
    (∀ (grammar : Grammar) (σ : Equiv.Perm (Fin grammar.size)), grammar.Distinct →
      (∀ edges, ¬ (Graph.ofModes grammar.modes).IsCycle edges) → grammar.SameUpToOrder (grammar.reordered σ)) ∧
    ∀ (document : Json) (items others : List Json) (grammar : Grammar),
      document.get? "modes" = some (.list items) → items.Perm others → load document = .ok grammar → grammar.Distinct →
      (∀ edges, ¬ (Graph.ofModes grammar.modes).IsCycle edges) →
        ∃ other, load (document.withItems "modes" others) = .ok other ∧ grammar.SameUpToOrder other := by
  refine ⟨fun n modes σ mode opened => ?_, fun grammar σ distinct acyclic => ?_, ?_⟩
  · rw [(Expansion.inPlace_gives _ _ _).1, (Expansion.inPlace_gives _ _ _).1, Expansion.expr_unfolded,
      Expansion.expr_unfolded, Expansion.inlineExpr_moved σ modes fun other => OpenModes.mem_moved σ]
  · exact sameUpToOrder_reordered acyclic σ distinct
  · intro document items others grammar found perm loaded distinct acyclic
    obtain ⟨σ, reloaded⟩ := load_reordered found perm loaded distinct
    exact ⟨grammar.reordered σ, reloaded, sameUpToOrder_reordered acyclic σ distinct⟩

/-- A mode that contains itself and another one. -/
def outerMode : Json :=
  .object [
    ("contains", .list [.text "self", .object [("ref", .text "inner")]]),
    ("id", .text "outer"),
    ("scope", .text "string")]

def innerMode : Json :=
  .object [("id", .text "inner"), ("scope", .text "number"), ("starts", .object [("ref", .text "inner")])]

def nestedDocument (modes : List Json) : Json :=
  .object [
    ("language", .object [("contains", .list [.object [("ref", .text "outer")]])]), ("modes", .list modes),
    ("version", .number (.whole 1))]

def outerAndInner : Modes 2 :=
  #v[⟨"outer", .scoped "string", [.itself, .mode (Fin.last 1)], [], none⟩,
    ⟨"inner", .scoped "number", [], [], some (.mode (Fin.last 1))⟩]

def nestedGrammar : Grammar where
  size := 2
  version := 1
  language :=
    { name := none
      aliases := []
      disableAutodetect := false
      caseInsensitive := false
      unicodeRegex := false
      keywords := none
      illegal := none
      classNameAliases := ∅
      contains := [.mode (Fin.last 1).rev] }
  modes := outerAndInner

theorem reordered_alike_nestedDocument :
    ∃ other, load (nestedDocument [innerMode, outerMode]) = .ok other ∧ nestedGrammar.SameUpToOrder other := by
  have loaded : load (nestedDocument [outerMode, innerMode]) = .ok nestedGrammar := by with_unfolding_all rfl
  have distinct : nestedGrammar.Distinct := by
    change ∀ a b : Fin 2, (outerAndInner.get a).id = (outerAndInner.get b).id → a = b
    decide
  have acyclic : ∀ edges, ¬ (Graph.ofModes outerAndInner).IsCycle edges := by
    -- Edges lead to later modes only.
    have upward : ∀ a b : Fin 2, b ∈ (Graph.ofModes outerAndInner).successors a → a < b := by decide
    have onward {a b : Fin 2} (reaches : (Graph.ofModes outerAndInner).Reaches a b) : a ≤ b := by
      induction reaches with
      | refl => exact Fin.le_refl a
      | tail _ leads ih => exact Fin.le_trans ih (Fin.le_of_lt (upward _ _ leads))
    rw [Graph.acyclic_iff]
    intro source target leads back
    exact absurd (upward source target leads) (Fin.not_lt.2 (onward back))
  exact reordered_alike.2.2 _ _ _ _ rfl (List.Perm.swap innerMode outerMode []) loaded distinct acyclic

end Grammar

end HighlightGrammar
