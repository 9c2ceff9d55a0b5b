import Mathlib.Data.List.Permutation
import Symbolization.Proofs.Elf.Extent
import Symbolization.Proofs.Elf.SymbolMap
import Symbolization.Proofs.Session.Requests
import Symbolization.Session.InMemory

/-!
# The nearest symbol

Both kinds of sessions name the symbol with the greatest address that is not behind the place that is
asked for.  A session over images halves a list that was sorted before, and moves runtime addresses
modulo 2^64; an in-memory session scans its symbols from the last one on, and knows of no place below
the bias.  Above the bias they answer alike.
-/

namespace Symbolization

namespace NearestSymbol

/-- The answer gives the name of the symbol and how far the place is behind it, which is added to the
address of the symbol without a carry. -/
structure Measures (answer : NearestSymbol) (symbol : ExportedSymbol) (place : UInt64) : Prop where
  name : answer.name = symbol.name
  offset : symbol.address.toNat + answer.offset.toNat = place.toNat

theorem measures_iff {answer : NearestSymbol} {symbol : ExportedSymbol} {place : UInt64}
    (atMost : symbol.address ≤ place) :
    answer.Measures symbol place ↔
      (⟨symbol.name, place - symbol.address⟩ : NearestSymbol) = answer := by
  have distance : (place - symbol.address).toNat = place.toNat - symbol.address.toNat :=
    UInt64.toNat_sub_of_le _ _ atMost
  have inOrder : symbol.address.toNat ≤ place.toNat := UInt64.le_iff_toNat_le.mp atMost
  constructor
  · rintro ⟨name, offset⟩
    have same : answer.offset = place - symbol.address := by
      rw [← UInt64.toNat_inj, distance]
      omega
    rw [← name, ← same]
  · rintro rfl
    refine ⟨rfl, ?_⟩
    rw [distance]
    omega

end NearestSymbol

/-- There is an answer unless all symbols are behind the place, and it is about the nearest one. -/
structure NamesNearest (symbols : List ExportedSymbol) (place : UInt64)
    (answer : Option NearestSymbol) : Prop where
  none_iff : answer = none ↔ ∀ symbol ∈ symbols, place < symbol.address
  some_iff : ∀ nearest, answer = some nearest ↔
    ∃ symbol, IsNearest (·.address) place symbols symbol ∧ nearest.Measures symbol place

namespace NamesNearest

variable {symbols : List ExportedSymbol} {place : UInt64}

theorem of_search {found : Option ExportedSymbol}
    (missed : found = none ↔ ∀ symbol ∈ symbols, place < symbol.address)
    (nearest : ∀ symbol, found = some symbol ↔ IsNearest (·.address) place symbols symbol) :
    NamesNearest symbols place
      (found.map fun symbol => ⟨symbol.name, place - symbol.address⟩) := by
  refine ⟨Option.map_eq_none_iff.trans missed, ?_⟩
  intro answer
  rw [Option.map_eq_some_iff]
  constructor
  · rintro ⟨symbol, isFound, same⟩
    have isNearest := (nearest symbol).mp isFound
    exact ⟨symbol, isNearest, (NearestSymbol.measures_iff isNearest.atMost).mpr same⟩
  · rintro ⟨symbol, isNearest, measures⟩
    have same := (NearestSymbol.measures_iff isNearest.atMost).mp measures
    exact ⟨symbol, (nearest symbol).mpr isNearest, same⟩

theorem unique {left right : Option NearestSymbol} (first : NamesNearest symbols place left)
    (second : NamesNearest symbols place right) : left = right := by
  cases left with
  | none => exact (second.none_iff.mpr (first.none_iff.mp rfl)).symm
  | some nearest => exact ((second.some_iff nearest).mpr ((first.some_iff nearest).mp rfl)).symm

end NamesNearest

/-! Sessions over images. -/

theorem ImageSession.namesNearest {session : ImageSession} {handle : ModuleHandle} {image : Image}
    {symbols : List ExportedSymbol} (registered : session.image? handle = some image)
    (given : image.symbols = .ofList symbols) (distinct : (symbols.map (·.address)).Nodup)
    (address : UInt64) :
    NamesNearest symbols (image.onDisk address) (session.view.nearestSymbol handle address) := by
  have answer : session.view.nearestSymbol handle address =
      ((SymbolMap.ofList symbols).find? (image.onDisk address)).map fun symbol =>
        ⟨symbol.name, image.onDisk address - symbol.address⟩ := by
    rw [← given]
    simp only [view, nearestSymbol, registered, Option.bind_eq_bind, Option.bind_some,
      Option.map_eq_bind]
    rfl
  rw [answer]
  apply NamesNearest.of_search SymbolMap.find?_ofList_eq_none_iff
  intro symbol
  exact SymbolMap.find?_ofList_eq_some_iff distinct

/-- Of an image that was read from a file no two symbols share an address. -/
theorem Image.exists_symbols_of_load {files : FileSource} {path : FilePath} {bias : UInt64}
    {image : Image} (loaded : load files path bias = .ok image) :
    ∃ symbols, image.symbols = .ofList symbols ∧ (symbols.map (·.address)).Nodup := by
  obtain ⟨bytes, file, -, -, made⟩ := exists_file_of_load loaded
  have symbols : image.symbols = file.symbolMap := by
    unfold ofFile at made
    split at made
    · contradiction
    · cases made
      rfl
  rw [symbols, Elf.File.symbolMap]
  split
  · exact Elf.SymbolTable.exists_distinct_map file.contents file.dynamicSymbols
  · exact Elf.SymbolTable.exists_distinct_map file.contents file.symbols

/-! In-memory sessions. -/

namespace MemorySymbol

def exported (symbol : MemorySymbol) : ExportedSymbol := ⟨symbol.address, symbol.name⟩

theorem le_iff {left right : MemorySymbol} : left.le right ↔
    left.address < right.address ∨ left.address = right.address ∧ left.name ≤ right.name := by
  simp only [le, Bool.or_eq_true, Bool.and_eq_true, decide_eq_true_eq, beq_iff_eq,
    Bool.not_eq_true', decide_eq_false_iff_not, String.not_lt]

theorem le_trans (first second third : MemorySymbol) (below : first.le second = true)
    (above : second.le third = true) : first.le third = true := by
  rw [le_iff] at below above ⊢
  rcases below with less | ⟨same, named⟩
  · rcases above with more | ⟨next, -⟩
    · exact .inl (UInt64.lt_trans less more)
    · exact .inl (next ▸ less)
  · rcases above with more | ⟨next, further⟩
    · exact .inl (same ▸ more)
    · exact .inr ⟨same.trans next, String.le_trans named further⟩

theorem le_total (first second : MemorySymbol) :
    (first.le second || second.le first) = true := by
  rw [Bool.or_eq_true, le_iff, le_iff]
  by_cases same : first.address = second.address
  · rcases String.le_total first.name second.name with named | named
    · exact .inl (.inr ⟨same, named⟩)
    · exact .inr (.inr ⟨same.symm, named⟩)
  · rcases UInt64.le_total first.address second.address with below | above
    · exact .inl (.inl (UInt64.lt_of_le_of_ne below same))
    · exact .inr (.inl (UInt64.lt_of_le_of_ne above (Ne.symm same)))

theorem address_le {left right : MemorySymbol} (ordered : left.le right = true) :
    left.address ≤ right.address := by
  rcases le_iff.mp ordered with less | ⟨same, -⟩
  · exact UInt64.le_of_lt less
  · exact UInt64.le_of_eq same

end MemorySymbol

namespace InMemorySession

variable {session : InMemorySession} {handle : ModuleHandle} {module : MemoryModule}

theorem nearestSymbol_below_bias (known : session.module? handle = some module)
    {address : UInt64} (below : address < module.bias) :
    session.view.nearestSymbol handle address = none := by
  have outside : module.onDisk? address = none := if_neg (UInt64.not_le.mpr below)
  simp [view, known, outside]

theorem namesNearest {symbols : List ExportedSymbol} (known : session.module? handle = some module)
    (given : (module.symbols.map (·.exported)).Perm symbols)
    (distinct : (symbols.map (·.address)).Nodup) {address : UInt64}
    (above : module.bias ≤ address) :
    NamesNearest symbols (address - module.bias) (session.view.nearestSymbol handle address) := by
  let place := address - module.bias
  let sorted := module.symbols.mergeSort MemorySymbol.le
  have answer : session.view.nearestSymbol handle address =
      (((sorted.filter (·.address ≤ place)).getLast?).map MemorySymbol.exported).map fun symbol =>
        ⟨symbol.name, place - symbol.address⟩ := by
    have inside : module.onDisk? address = some place := if_pos above
    rw [Option.map_map]
    simp only [view, known, inside, Option.bind_eq_bind, Option.bind_some]
    rfl
  have perm : sorted.Perm module.symbols := List.mergeSort_perm _ _
  have ascending : sorted.Pairwise fun first second => first.address ≤ second.address :=
    (List.pairwise_mergeSort MemorySymbol.le_trans MemorySymbol.le_total _).imp
      MemorySymbol.address_le
  have missed : ((sorted.filter (·.address ≤ place)).getLast?).map MemorySymbol.exported = none ↔
      ∀ symbol ∈ symbols, place < symbol.address := by
    rw [Option.map_eq_none_iff, getLast?_filter_eq_none_iff]
    simp only [← given.mem_iff, List.forall_mem_map, perm.mem_iff]
    rfl
  rw [answer]
  apply NamesNearest.of_search missed
  intro nearest
  apply eq_some_iff_isNearest distinct missed.mp
  intro symbol found
  obtain ⟨last, isLast, rfl⟩ := Option.map_eq_some_iff.mp found
  exact (((isNearest_of_getLast? ascending isLast).of_perm perm).map MemorySymbol.exported).of_perm
    given

end InMemorySession

/-! Both of them. -/

namespace ImageSession

/-- A session over images names the nearest symbol of any list without two symbols at one address, in
whatever order it was given.  An in-memory session with the same symbols names the same one at and
above the bias, and below the bias it names none.  The symbols of an image that was read from a file
are such a list. -/
theorem nearestSymbol_exact :
    (∀ (session : ImageSession) (handle : ModuleHandle) (image : Image)
      (symbols : List ExportedSymbol), session.image? handle = some image →
        image.symbols = .ofList symbols → (symbols.map (·.address)).Nodup → ∀ address,
          NamesNearest symbols (image.onDisk address) (session.view.nearestSymbol handle address) ∧
            ∀ (memory : InMemorySession) (other : ModuleHandle) (module : MemoryModule),
              memory.module? other = some module → module.bias = image.bias →
                (module.symbols.map (·.exported)).Perm symbols →
                  memory.view.nearestSymbol other address =
                    if image.bias ≤ address then session.view.nearestSymbol handle address
                    else none) ∧
    ∀ (files : FileSource) (path : FilePath) (bias : UInt64) (image : Image),
      Image.load files path bias = .ok image →
        ∃ symbols, image.symbols = .ofList symbols ∧ (symbols.map (·.address)).Nodup := by
  refine ⟨?_, fun _ _ _ _ => Image.exists_symbols_of_load⟩
  intro session handle image symbols registered given distinct address
  have names := namesNearest registered given distinct address
  refine ⟨names, ?_⟩
  intro memory other module known sameBias sameSymbols
  split
  · rename_i above
    rw [← sameBias] at above
    have otherNames := InMemorySession.namesNearest known sameSymbols distinct above
    rw [sameBias] at otherNames
    exact otherNames.unique names
  · rename_i below
    rw [← sameBias, UInt64.not_le] at below
    exact InMemorySession.nearestSymbol_below_bias known below

def threeSymbols : List ExportedSymbol := [⟨0x300, "third"⟩, ⟨0x100, "first"⟩, ⟨0x200, "second"⟩]

def threeSymbolsImage : Image :=
  { bareImage "libfoo.so" 0x1000 0x1000 with symbols := .ofList threeSymbols }

def withThreeSymbols : ImageSession :=
  run (.new fun _ => .error .notFound) [.reportBegin, .reportImage threeSymbolsImage, .reportEnd]

def threeSymbolsInMemory : InMemorySession :=
  .ofModules [{
    name := "libfoo.so"
    bias := 0x1000
    extent := ⟨0x1000, 0x2000⟩
    symbols := [⟨0x100, "first"⟩, ⟨0x300, "third"⟩, ⟨0x200, "second"⟩]
    units := []
    assignments := []
    isVisible := true }]

/-- Right before the third symbol both sessions name the second one.  Right below the bias one of
them comes out at the greatest of all places. -/
theorem nearestSymbol_withThreeSymbols :
    NamesNearest threeSymbols 0x2ff (withThreeSymbols.view.nearestSymbol ⟨1⟩ 0x12ff) ∧
      threeSymbolsInMemory.view.nearestSymbol ⟨1⟩ 0x12ff = some ⟨"second", 0xff⟩ ∧
      withThreeSymbols.view.nearestSymbol ⟨1⟩ 0xfff = some ⟨"third", 0xfffffffffffffcff⟩ ∧
      threeSymbolsInMemory.view.nearestSymbol ⟨1⟩ 0xfff = none := by
  have registered : withThreeSymbols.image? ⟨1⟩ = some threeSymbolsImage := by cbv
  have distinct : (threeSymbols.map (·.address)).Nodup := by decide
  have sameSymbols : (List.map MemorySymbol.exported
      [⟨0x100, "first"⟩, ⟨0x300, "third"⟩, ⟨0x200, "second"⟩]).Perm threeSymbols := by decide
  have names := nearestSymbol_exact.1 _ _ _ _ registered rfl distinct
  have above := names 0x12ff
  have below := names 0xfff
  refine ⟨above.1, ?_, by cbv, below.2 _ ⟨1⟩ _ rfl rfl sameSymbols⟩
  rw [above.2 threeSymbolsInMemory ⟨1⟩ _ rfl rfl sameSymbols]
  cbv

end ImageSession

end Symbolization
