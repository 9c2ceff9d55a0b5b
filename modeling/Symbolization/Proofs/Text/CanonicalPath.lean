import Symbolization.Proofs.Text.CleanPath

/-!
# The canonical form of a path

A path is a text of parts between slashes, and it is a way through a tree of directories.  Cleaning
leaves of the text only parts that are needed, with every `..` in front of all names, and leaves the
way as it is: from whatever directory one starts, both paths lead to the same one.
-/

namespace Symbolization

namespace PathComponent

theorem isPiece_parent : PathComponent.parent.IsPiece := ⟨rfl, by decide⟩

theorem IsPiece.eq_parent {component : PathComponent} (isPiece : component.IsPiece)
    (dots : component.text.toList = ['.', '.']) : component = .parent := by
  have read := isPiece.read
  rw [dots] at read
  exact (Option.some.inj read).symm

end PathComponent

namespace Path

/-- The parts of a path between its slashes.  The slash in front of an absolute path belongs to
none, so the root has no parts. -/
def parts (path : String) : List (List Char) :=
  if path = "/" then []
  else if isAbsolute path then (pieces path).tail
  else pieces path

/-- Every part is needed. -/
structure IsCanonical (path : String) : Prop where
  noEmptyPart : [] ∉ parts path
  dotAlone : ['.'] ∈ parts path → path = "."
  parentsFirst : (parts path).Pairwise fun earlier later =>
    later = ['.', '.'] → earlier = ['.', '.']
  noParentOfRoot : isAbsolute path → ['.', '.'] ∉ parts path

/-- The directory to which a part leads.  A directory is the list of the names on the way to it
from the root, and the root is its own parent. -/
def enter (directory : List String) (part : List Char) : List String :=
  if part = [] ∨ part = ['.'] then directory
  else if part = ['.', '.'] then directory.dropLast
  else directory ++ [String.ofList part]

def directoryFrom (base : List String) (path : String) : List String :=
  (pieces path).foldl enter (if isAbsolute path then [] else base)

/-- The second path is a clean form of the first one. -/
structure IsCleanForm (path result : String) : Prop where
  fixed : clean result = result
  canonical : path ≠ "" → IsCanonical result
  absolute : isAbsolute result = isAbsolute path
  sameDirectory : ∀ base, directoryFrom base result = directoryFrom base path

/-! The way of a path is that of its components, and folding keeps it. -/

def visit (directory : List String) : PathComponent → List String
  | .root => []
  | .current => directory
  | .parent => directory.dropLast
  | .named name => directory ++ [name]

/-- The directory to which components lead from a base. -/
def walk (base : List String) (components : List PathComponent) : List String :=
  components.foldl visit base

theorem enter_eq (directory : List String) (piece : List Char) :
    enter directory piece =
      (PathComponent.ofPiece? piece).elim directory (visit directory) := by
  unfold PathComponent.ofPiece?
  split
  · rfl
  · rfl
  · rfl
  · rename_i notEmpty notDot notParent
    rw [enter, if_neg (not_or.mpr ⟨notEmpty, notDot⟩), if_neg notParent]
    rfl

theorem foldl_enter (directory : List String) (pieces : List (List Char)) :
    pieces.foldl enter directory =
      walk directory (pieces.filterMap PathComponent.ofPiece?) := by
  induction pieces generalizing directory with
  | nil => rfl
  | cons piece pieces induction =>
      rw [List.foldl_cons, induction, enter_eq, List.filterMap_cons]
      cases PathComponent.ofPiece? piece <;> rfl

theorem directoryFrom_eq_walk (base : List String) (path : String) :
    directoryFrom base path = walk base (components path) := by
  rw [directoryFrom, foldl_enter, components, walk, walk, List.foldl_append]
  congr 1
  cases isAbsolute path with
  | true => rfl
  | false => cases (pieces path).head? == some ['.'] <;> rfl

theorem walk_reverse_cons (base : List String) (component : PathComponent)
    (folded : List PathComponent) :
    walk base (component :: folded).reverse = visit (walk base folded.reverse) component := by
  rw [walk, walk, List.reverse_cons, List.foldl_append]
  rfl

/-- The stack leads where it led before, and from there where the new component leads. -/
theorem walk_foldComponent (base : List String) (folded : List PathComponent)
    (component : PathComponent) :
    walk base (foldComponent folded component).reverse =
      visit (walk base folded.reverse) component := by
  cases component with
  | root | named => exact walk_reverse_cons base _ folded
  | current => rfl
  | parent =>
      match folded with
      | [] | .current :: _ | .parent :: _ => exact walk_reverse_cons base .parent _
      | .root :: below =>
          rw [walk_reverse_cons]
          exact walk_reverse_cons base .root below
      | .named name :: below =>
          rw [walk_reverse_cons]
          exact (List.dropLast_concat).symm

theorem walk_fold (base : List String) (components : List PathComponent) :
    walk base (fold components) = walk base components := by
  have onStack : ∀ folded, walk base (components.foldl foldComponent folded).reverse =
      walk (walk base folded.reverse) components := by
    induction components with
    | nil => exact fun _ => rfl
    | cons component components induction =>
        intro folded
        rw [List.foldl_cons, induction, walk_foldComponent]
        rfl
  exact onStack []

/-! A path is absolute if its components have a root, and folding neither adds nor drops one. -/

theorem root_mem_components {path : String} : .root ∈ components path ↔ isAbsolute path := by
  have noPiece : .root ∉ (pieces path).filterMap PathComponent.ofPiece? := fun member =>
    (isPiece_of_mem_pieces member).whole (List.mem_singleton_self '/')
  rw [components, List.mem_append, or_iff_left noPiece]
  cases isAbsolute path with
  | true => simp
  | false => cases (pieces path).head? == some ['.'] <;> simp

theorem root_mem_foldComponent {folded : List PathComponent} {component : PathComponent} :
    .root ∈ foldComponent folded component ↔ .root ∈ folded ∨ .root = component := by
  cases component with
  | parent =>
      match folded with
      | [] | .current :: _ | .parent :: _ | .root :: _ | .named _ :: _ => simp [foldComponent]
  | _ => simp [foldComponent, or_comm]

theorem root_mem_fold {components : List PathComponent} :
    .root ∈ fold components ↔ .root ∈ components := by
  have onStack : ∀ folded, .root ∈ components.foldl foldComponent folded ↔
      .root ∈ folded ∨ .root ∈ components := by
    induction components with
    | nil => simp
    | cons component components induction =>
        intro folded
        rw [List.foldl_cons, induction, root_mem_foldComponent, List.mem_cons, or_assoc]
  rw [fold, List.mem_reverse, onStack, or_iff_right List.not_mem_nil]

/-! The parts of a path that was written from the stack are the texts on it. -/

section Piece

variable {component : PathComponent}

theorem parts_text (isPiece : component.IsPiece) :
    parts component.text = [component.text.toList] := by
  have notRoot : component.text ≠ "/" := by
    intro isRoot
    have whole := isPiece.whole
    rw [isRoot] at whole
    exact whole (List.mem_singleton_self '/')
  rw [parts, if_neg notRoot, isAbsolute_text isPiece, pieces_text isPiece]
  rfl

/-- A part that is written behind the root or behind a slash is one more part. -/
theorem parts_join {base : String} (isPiece : component.IsPiece)
    (ends : base = "/" ∨ base.toList.getLast?.any (· != '/')) :
    parts (join base component.text) = parts base ++ [component.text.toList] := by
  have relative := isAbsolute_text isPiece
  rcases ends with rfl | open'
  · have joined : join "/" component.text = "" ++ "/" ++ component.text := by
      rw [join, relative]
      rfl
    have notRoot : "" ++ "/" ++ component.text ≠ "/" := by
      intro equality
      exact isPiece.text_ne_nil (by simpa using congrArg String.toList equality)
    have absolute : isAbsolute ("" ++ "/" ++ component.text) = true := by
      simp [isAbsolute]
    rw [joined, parts, if_neg notRoot, if_pos absolute, pieces_append, pieces_text isPiece]
    rfl
  · have joined : join base component.text = base ++ "/" ++ component.text := by
      rw [join, relative, if_neg Bool.false_ne_true, if_pos open']
    have notEmpty : base ≠ "" := by
      rintro rfl
      contradiction
    have notRoot : base ≠ "/" := by
      rintro rfl
      contradiction
    have joinedNotRoot : base ++ "/" ++ component.text ≠ "/" := by
      intro equality
      have lengths := congrArg (·.toList.length) equality
      have some := List.length_pos_iff.mpr isPiece.text_ne_nil
      simp at lengths some
      omega
    have absolute : isAbsolute (base ++ "/" ++ component.text) = isAbsolute base := by
      rw [String.append_assoc, isAbsolute_append notEmpty]
    have pieces_ne : pieces base ≠ [] := List.splitOn_ne_nil '/' base.toList
    rw [joined, parts, if_neg joinedNotRoot, absolute, pieces_append, pieces_text isPiece, parts,
      if_neg notRoot, List.tail_append_of_ne_nil pieces_ne]
    cases isAbsolute base <;> rfl

theorem getLast?_join (isPiece : component.IsPiece) (base : String) :
    (join base component.text).toList.getLast?.any (· != '/') := by
  obtain ⟨letter, isLast⟩ := Option.isSome_iff_exists.mp
    (List.getLast?_isSome.mpr isPiece.text_ne_nil)
  have notSlash : letter ≠ '/' := by
    rintro rfl
    exact isPiece.whole (List.mem_of_getLast? isLast)
  have last : (join base component.text).toList.getLast? = some letter := by
    rw [join, isAbsolute_text isPiece, if_neg Bool.false_ne_true]
    split <;> simp [isLast, List.getLast?_cons]
  simpa [last] using notSlash

end Piece

/-- The texts on the stack from its bottom on, without that of the root. -/
def texts (folded : List PathComponent) : List (List Char) :=
  (folded.reverse.filter (· != .root)).map (·.text.toList)

theorem texts_cons {component : PathComponent} (isPiece : component.IsPiece)
    (folded : List PathComponent) :
    texts (component :: folded) = texts folded ++ [component.text.toList] := by
  have notRoot : component ≠ .root := by
    rintro rfl
    exact isPiece.whole (List.mem_singleton_self '/')
  simp [texts, notRoot]

theorem render_reverse_cons (component : PathComponent) (folded : List PathComponent) :
    render (component :: folded).reverse = join (render folded.reverse) component.text := by
  rw [render, List.reverse_cons, List.foldl_append]
  rfl

/-- What was written from the stack has its texts as parts, and ends in a slash only as the root. -/
structure Writes (folded : List PathComponent) (path : String) : Prop where
  parts : parts path = texts folded
  ends : path = "/" ∨ path.toList.getLast?.any (· != '/')

theorem Writes.cons {component : PathComponent} {folded : List PathComponent}
    (isPiece : component.IsPiece)
    (below : folded ≠ [] → Writes folded (render folded.reverse)) :
    Writes (component :: folded) (render (component :: folded).reverse) where
  parts := by
    rw [render_reverse_cons, texts_cons isPiece]
    cases folded with
    | nil =>
        have alone : join "" component.text = component.text := by
          rw [join, isAbsolute_text isPiece]
          exact String.empty_append
        exact (congrArg _ alone).trans (parts_text isPiece)
    | cons next folded =>
        have written := below (List.cons_ne_nil _ _)
        rw [parts_join isPiece written.ends, written.parts]
  ends := .inr (by
    rw [render_reverse_cons]
    exact getLast?_join isPiece _)

theorem writes_render {folded : List PathComponent} (isFolded : Folded folded)
    (some : folded ≠ []) : Writes folded (render folded.reverse) := by
  induction isFolded with
  | root => exact ⟨by rfl, .inl rfl⟩
  | named isPiece _ induction => exact .cons isPiece induction
  | parents count =>
      induction count with
      | zero => contradiction
      | succ count induction => exact .cons PathComponent.isPiece_parent induction

namespace Folded

variable {folded : List PathComponent} {component : PathComponent}

theorem isPiece_of_mem (isFolded : Folded folded) (member : component ∈ folded)
    (notRoot : component ≠ .root) : component.IsPiece := by
  induction isFolded with
  | parents count =>
      rw [List.eq_of_mem_replicate member]
      exact PathComponent.isPiece_parent
  | root => exact absurd (List.mem_singleton.mp member) notRoot
  | named isPiece _ induction =>
      rcases List.mem_cons.mp member with rfl | below
      · exact isPiece
      · exact induction below

theorem parentsBelow (isFolded : Folded folded) :
    folded.Pairwise fun upper lower => upper = .parent → lower = .parent := by
  induction isFolded with
  | parents count => exact List.pairwise_replicate.mpr (.inr id)
  | root => exact List.pairwise_singleton _ _
  | named _ _ induction => exact .cons (fun _ _ isParent => nomatch isParent) induction

theorem parent_not_mem (isFolded : Folded folded) (hasRoot : .root ∈ folded) :
    .parent ∉ folded := by
  induction isFolded with
  | parents count => exact nomatch List.eq_of_mem_replicate hasRoot
  | root => decide
  | named _ _ induction =>
      have below := (List.mem_cons.mp hasRoot).resolve_left nofun
      exact fun member =>
        induction below ((List.mem_cons.mp member).resolve_left nofun)

theorem exists_of_mem_texts (isFolded : Folded folded) {part : List Char}
    (member : part ∈ texts folded) :
    ∃ component ∈ folded, component.IsPiece ∧ component.text.toList = part := by
  obtain ⟨component, inside, written⟩ := List.mem_map.mp member
  obtain ⟨inFolded, notRoot⟩ := List.mem_filter.mp inside
  have inFolded := List.mem_reverse.mp inFolded
  exact ⟨component, inFolded, isFolded.isPiece_of_mem inFolded (by simpa using notRoot), written⟩

theorem parentsFirst_texts (isFolded : Folded folded) :
    (texts folded).Pairwise fun earlier later =>
      later = ['.', '.'] → earlier = ['.', '.'] := by
  rw [texts, List.pairwise_map]
  refine List.Pairwise.filter _ (List.pairwise_reverse.mpr ?_)
  refine isFolded.parentsBelow.imp_of_mem ?_
  intro upper lower upperMember lowerMember parentBelow dots
  have notRoot : upper ≠ .root := by
    rintro rfl
    contradiction
  have isParent := (isFolded.isPiece_of_mem upperMember notRoot).eq_parent dots
  rw [parentBelow isParent]
  rfl

theorem isCanonical_render (isFolded : Folded folded) (some : folded ≠ []) :
    IsCanonical (render folded.reverse) := by
  have partsAre := (writes_render isFolded some).parts
  constructor
  · rw [partsAre]
    intro member
    obtain ⟨_, _, isPiece, empty⟩ := isFolded.exists_of_mem_texts member
    exact isPiece.text_ne_nil empty
  · rw [partsAre]
    intro member
    obtain ⟨_, _, isPiece, dot⟩ := isFolded.exists_of_mem_texts member
    exact absurd dot isPiece.text_ne_dot
  · rw [partsAre]
    exact isFolded.parentsFirst_texts
  · rw [partsAre]
    intro absolute member
    obtain ⟨component, inFolded, isPiece, dots⟩ := isFolded.exists_of_mem_texts member
    rw [isPiece.eq_parent dots] at inFolded
    have hasRoot := root_mem_components.mpr absolute
    rw [components_render isFolded, List.mem_reverse] at hasRoot
    exact isFolded.parent_not_mem hasRoot inFolded

end Folded

theorem isCanonical_dot : IsCanonical "." := by
  have parts : parts "." = [['.']] := rfl
  exact ⟨by simp [parts], fun _ => rfl, by simp [parts], by simp [parts]⟩

/-- Cleaning gives a canonical path that leads to the same directories. -/
theorem isCleanForm_clean (path : String) : IsCleanForm path (clean path) := by
  by_cases empty : path = ""
  · subst empty
    exact ⟨rfl, fun notEmpty => absurd rfl notEmpty, rfl, fun _ => rfl⟩
  · obtain ⟨folded, isFolded, folds⟩ := exists_folded path
    have sameDirectory (base : List String) :
        walk base folded.reverse = directoryFrom base path := by
      rw [← folds, walk_fold, directoryFrom_eq_walk]
    have sameRoot : .root ∈ folded ↔ isAbsolute path := by
      rw [← List.mem_reverse, ← folds, root_mem_fold, root_mem_components]
    have fixed := clean_clean path
    by_cases nothing : folded = []
    · subst nothing
      have dot : clean path = "." := by
        rw [clean, if_neg empty, folds]
        rfl
      rw [dot] at fixed ⊢
      have relative : isAbsolute path = false := by simpa using sameRoot
      exact ⟨fixed, fun _ => isCanonical_dot, relative.symm, sameDirectory⟩
    · have rendered := clean_eq_render empty folds nothing
      rw [rendered] at fixed ⊢
      refine ⟨fixed, fun _ => isFolded.isCanonical_render nothing, ?_, ?_⟩
      · rw [Bool.eq_iff_iff, ← root_mem_components, components_render isFolded,
          List.mem_reverse, sameRoot]
      · intro base
        rw [directoryFrom_eq_walk, components_render isFolded, sameDirectory]

end Path

end Symbolization
