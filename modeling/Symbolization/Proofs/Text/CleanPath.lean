import Symbolization.Text.Path

/-!
# Clean paths

The components of a path are folded on a stack.  All that ever lies on it is a root or some parents
at the bottom and names above them, and the path that goes through such components has no other
components.  So cleaning a clean path changes nothing.
-/

namespace Symbolization

namespace PathComponent

theorem text_of_ofPiece? {piece : List Char} {component : PathComponent}
    (read : ofPiece? piece = some component) : component.text.toList = piece := by
  unfold ofPiece? at read
  split at read
  · contradiction
  · contradiction
  · cases read
    rfl
  · cases read
    exact String.toList_ofList

/-- The component is read from what stands between two slashes. -/
structure IsPiece (component : PathComponent) : Prop where
  read : ofPiece? component.text.toList = some component
  whole : '/' ∉ component.text.toList

theorem IsPiece.text_ne_nil {component : PathComponent} (isPiece : component.IsPiece) :
    component.text.toList ≠ [] := by
  intro empty
  have read := isPiece.read
  rw [empty] at read
  contradiction

theorem IsPiece.text_ne_dot {component : PathComponent} (isPiece : component.IsPiece) :
    component.text.toList ≠ ['.'] := by
  intro dot
  have read := isPiece.read
  rw [dot] at read
  contradiction

theorem isPiece_of_ofPiece? {piece : List Char} {component : PathComponent}
    (read : ofPiece? piece = some component) (whole : '/' ∉ piece) : component.IsPiece := by
  have same := text_of_ofPiece? read
  constructor
  · rw [same]
    exact read
  · rw [same]
    exact whole

end PathComponent

namespace Path

theorem slash_not_mem_of_mem_splitOn {text piece : List Char}
    (member : piece ∈ text.splitOn '/') : '/' ∉ piece := by
  induction text generalizing piece with
  | nil =>
      rw [List.splitOn_nil, List.mem_singleton] at member
      rw [member]
      exact List.not_mem_nil
  | cons first text induction =>
      rw [List.splitOn_cons_eq_if_modifyHead] at member
      by_cases slash : first = '/'
      · rw [if_pos (beq_iff_eq.mpr slash)] at member
        rcases List.mem_cons.mp member with rfl | later
        · exact List.not_mem_nil
        · exact induction later
      · rw [if_neg (by simpa using slash)] at member
        obtain ⟨head, pieces, split⟩ := List.exists_cons_of_ne_nil (List.splitOn_ne_nil '/' text)
        rw [split] at member induction
        rcases List.mem_cons.mp member with rfl | later
        · rintro (_ | ⟨_, inside⟩)
          · exact slash rfl
          · exact induction (by simp) inside
        · exact induction (List.mem_cons_of_mem _ later)

/-- What lies on the stack, the last component first. -/
inductive Folded : List PathComponent → Prop where
  | parents (count : Nat) : Folded (.replicate count .parent)
  | root : Folded [.root]
  | named {name : String} {folded : List PathComponent} :
      (PathComponent.named name).IsPiece → Folded folded → Folded (.named name :: folded)

namespace Folded

variable {folded : List PathComponent}

theorem foldComponent (isFolded : Folded folded) {component : PathComponent}
    (isPiece : component.IsPiece) : Folded (foldComponent folded component) := by
  cases component with
  | root => exact absurd (List.mem_singleton_self '/') isPiece.whole
  | current => exact isFolded
  | named name => exact .named isPiece isFolded
  | parent =>
      cases isFolded with
      | parents count =>
          cases count with
          | zero => exact .parents 1
          | succ count => exact .parents (count + 2)
      | root => exact .root
      | named _ below => exact below

theorem foldl (isFolded : Folded folded) {components : List PathComponent}
    (arePieces : ∀ component ∈ components, component.IsPiece) :
    Folded (components.foldl Path.foldComponent folded) := by
  induction components generalizing folded with
  | nil => exact isFolded
  | cons component components induction =>
      have next := isFolded.foldComponent (arePieces component (by simp))
      exact induction next fun later member => arePieces later (by simp [member])

/-- Folding what is folded already puts every component on the stack again. -/
theorem fold_reverse (isFolded : Folded folded) : fold folded.reverse = folded.reverse := by
  rw [fold, List.foldl_reverse]
  congr 1
  induction isFolded with
  | parents count =>
      induction count with
      | zero => rfl
      | succ count induction =>
          rw [List.replicate_succ, List.foldr_cons, induction]
          cases count <;> rfl
  | root => rfl
  | named _ _ induction =>
      rw [List.foldr_cons, induction]
      rfl

end Folded

theorem isPiece_of_mem_pieces {path : String} {component : PathComponent}
    (member : component ∈ (pieces path).filterMap PathComponent.ofPiece?) :
    component.IsPiece := by
  obtain ⟨piece, inside, read⟩ := List.mem_filterMap.mp member
  exact PathComponent.isPiece_of_ofPiece? read (slash_not_mem_of_mem_splitOn inside)

theorem exists_folded (path : String) :
    ∃ folded, Folded folded ∧ fold (components path) = folded.reverse := by
  refine ⟨(components path).foldl foldComponent [], ?_, rfl⟩
  rw [components, List.foldl_append]
  apply Folded.foldl
  · split
    · exact .root
    · split
      · exact .parents 0
      · exact .parents 0
  · intro component member
    exact isPiece_of_mem_pieces member

theorem pieces_append (path rest : String) :
    pieces (path ++ "/" ++ rest) = pieces path ++ pieces rest := by
  have split : (path ++ "/" ++ rest).toList = path.toList ++ '/' :: rest.toList := by
    simp
  rw [pieces, split, List.splitOn_append_cons_self]
  rfl

theorem pieces_append_slash (path : String) : pieces (path ++ "/") = pieces path ++ [[]] := by
  have split := pieces_append path ""
  rw [String.append_empty] at split
  exact split

theorem head?_pieces_append (path : String) (more : List (List Char)) :
    (pieces path ++ more).head? = (pieces path).head? := by
  obtain ⟨first, others, split⟩ := List.exists_cons_of_ne_nil (List.splitOn_ne_nil '/' path.toList)
  have split : pieces path = first :: others := split
  rw [split]
  rfl

theorem filterMap_append_slash (path : String) :
    (pieces (path ++ "/")).filterMap PathComponent.ofPiece? =
      (pieces path).filterMap PathComponent.ofPiece? := by
  rw [pieces_append_slash, List.filterMap_append]
  exact List.append_nil _

theorem isAbsolute_append {path : String} (notEmpty : path ≠ "") (rest : String) :
    isAbsolute (path ++ rest) = isAbsolute path := by
  cases letters : path.toList with
  | nil => exact absurd (String.toList_eq_nil_iff.mp letters) notEmpty
  | cons letter letters => simp [isAbsolute, letters]

theorem components_append_slash {path : String} (notEmpty : path ≠ "") :
    components (path ++ "/") = components path := by
  simp only [components, isAbsolute_append notEmpty, filterMap_append_slash]
  rw [pieces_append_slash, head?_pieces_append]

theorem components_append (path rest : String) :
    components (path ++ "/" ++ rest) =
      components (path ++ "/") ++ (pieces rest).filterMap PathComponent.ofPiece? := by
  have notEmpty : path ++ "/" ≠ "" := by simp
  simp only [components, isAbsolute_append notEmpty, filterMap_append_slash]
  rw [pieces_append, pieces_append_slash, head?_pieces_append, head?_pieces_append,
    List.filterMap_append, List.append_assoc]

theorem isAbsolute_text {component : PathComponent} (isPiece : component.IsPiece) :
    isAbsolute component.text = false := by
  rw [isAbsolute, beq_eq_false_iff_ne]
  intro starts
  exact isPiece.whole (List.mem_of_mem_head? starts)

theorem pieces_text {component : PathComponent} (isPiece : component.IsPiece) :
    pieces component.text = [component.text.toList] :=
  List.splitOn_eq_singleton isPiece.whole

/-- A piece that is joined to a path is one more component of it. -/
theorem components_join (base : String) {component : PathComponent}
    (isPiece : component.IsPiece) :
    components (join base component.text) = components base ++ [component] := by
  have relative := isAbsolute_text isPiece
  have onePiece : (pieces component.text).filterMap PathComponent.ofPiece? = [component] := by
    rw [pieces_text isPiece]
    simp [isPiece.read]
  rw [join, relative, if_neg Bool.false_ne_true]
  cases final : base.toList.getLast? with
  | none =>
      have empty : base = "" := String.toList_eq_nil_iff.mp (List.getLast?_eq_none_iff.mp final)
      subst empty
      have noDot : (pieces component.text).head? ≠ some ['.'] := by
        rw [pieces_text isPiece]
        simpa using isPiece.text_ne_dot
      have alone : components component.text = [component] := by
        rw [components, relative, onePiece]
        simp [noDot]
      have none : components "" = [] := rfl
      simpa [none] using alone
  | some letter =>
      by_cases slash : letter = '/'
      · obtain ⟨front, split⟩ := List.getLast?_eq_some_iff.mp final
        have ends : base = String.ofList front ++ "/" := by
          apply String.toList_inj.mp
          simp [split, slash]
        rw [if_neg (by simpa using slash), ends, components_append, onePiece]
      · have notEmpty : base ≠ "" := by
          rintro rfl
          contradiction
        rw [if_pos (by simpa using slash), components_append, components_append_slash notEmpty,
          onePiece]

theorem components_render {folded : List PathComponent} (isFolded : Folded folded) :
    components (render folded.reverse) = folded.reverse := by
  rw [render, List.foldl_reverse]
  induction isFolded with
  | parents count =>
      induction count with
      | zero => rfl
      | succ count induction =>
          rw [List.replicate_succ, List.foldr_cons, components_join _ ⟨rfl, by decide⟩, induction,
            List.reverse_cons]
  | root => rfl
  | named isPiece _ induction =>
      rw [List.foldr_cons, components_join _ isPiece, induction, List.reverse_cons]

theorem clean_eq_render {path : String} {folded : List PathComponent} (notEmpty : path ≠ "")
    (folds : fold (components path) = folded.reverse) (some : folded ≠ []) :
    clean path = render folded.reverse := by
  obtain ⟨part, parts, split⟩ := List.exists_cons_of_ne_nil (List.reverse_ne_nil_iff.mpr some)
  rw [clean, if_neg notEmpty, folds, split]

theorem clean_clean (path : String) : clean (clean path) = clean path := by
  obtain ⟨folded, isFolded, folds⟩ := exists_folded path
  by_cases empty : path = ""
  · subst empty
    rfl
  · by_cases nothing : folded = []
    · have dot : clean path = "." := by
        rw [clean, if_neg empty, folds, nothing]
        rfl
      rw [dot]
      rfl
    · have same := components_render isFolded
      have notEmpty : render folded.reverse ≠ "" := by
        intro empty
        rw [empty] at same
        exact nothing (List.reverse_eq_nil_iff.mp same.symm)
      have again : fold (components (render folded.reverse)) = folded.reverse := by
        rw [same, isFolded.fold_reverse]
      rw [clean_eq_render empty folds nothing]
      exact clean_eq_render notEmpty again nothing

end Path

end Symbolization
