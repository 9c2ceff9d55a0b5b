import Symbolization.Dwarf.Names
import Symbolization.Proofs.Dwarf.EntryPlaces

/-!
# Inherited names

References lead from an entry to others, of its unit or of another one, and possibly back to it.  A
way is the list of the references that are followed one after the other.  Of two ways that part,
the one through the abstract origin stands before the one through the specification, and a way
stands before all that go on from its end.  An entry inherits the text at the end of the first way
on which one is found; it has a name if any of the naming attributes is within its reach.
-/

namespace Symbolization

namespace Dwarf

/-- The references from which an entry inherits. -/
inductive OriginLink where
  | abstractOrigin
  | specification
  deriving DecidableEq, Repr

namespace OriginLink

/-- The attribute that holds the reference. -/
def attributeName : OriginLink → AttributeName
  | .abstractOrigin => .abstractOrigin
  | .specification => .specification

/-- The order in which the references of an entry are followed. -/
inductive Before : OriginLink → OriginLink → Prop where
  | originFirst : Before .abstractOrigin .specification

/-- Two ways are the same, or one of them stands before the other. -/
theorem trichotomy (left right : List OriginLink) :
    List.Lex Before left right ∨ left = right ∨ List.Lex Before right left := by
  induction left generalizing right with
  | nil =>
      cases right with
      | nil => exact .inr (.inl rfl)
      | cons link right => exact .inl .nil
  | cons link left induction =>
      cases right with
      | nil => exact .inr (.inr .nil)
      | cons other right =>
          cases link <;> cases other
          case abstractOrigin.specification => exact .inl (.rel .originFirst)
          case specification.abstractOrigin => exact .inr (.inr (.rel .originFirst))
          all_goals
            rcases induction right with before | rfl | behind
            · exact .inl (.cons before)
            · exact .inr (.inl rfl)
            · exact .inr (.inr (.cons behind))

end OriginLink

abbrev UnitEntry : Type := CompilationUnit × Entry

namespace UnitEntry

/-- The attribute of the entry can be read and is a text. -/
inductive Carries (carrier : UnitEntry) (name : AttributeName) : String → Prop where
  | text {value : AttributeValue} {bytes : List UInt8} :
      carrier.2.value? name = some value → carrier.1.context.text? value = some bytes →
      Carries carrier name (Utf8.lossy bytes)

theorem carries_iff {carrier : UnitEntry} {name : AttributeName} {text : String} :
    carrier.Carries name text ↔ DebugData.ownText? carrier.1 carrier.2 name = some text := by
  rw [DebugData.ownText?, Option.map_eq_some_iff]
  constructor
  · rintro ⟨found, read⟩
    exact ⟨_, Option.bind_eq_some_iff.mpr ⟨_, found, read⟩, rfl⟩
  · rintro ⟨bytes, both, rfl⟩
    obtain ⟨value, found, read⟩ := Option.bind_eq_some_iff.mp both
    exact .text found read

end UnitEntry

namespace DebugData

/-- A reference of an entry leads to another entry: of its own unit by the offset in that unit, or by
the offset in the section of the unit among whose entries that lies.  In data that was read from
sections there is one such unit at most (`offersFirst_iff`). -/
inductive Refers (data : DebugData) : UnitEntry → OriginLink → UnitEntry → Prop where
  | within {unit : CompilationUnit} {entry origin : Entry} {link : OriginLink} {offset : Nat} :
      entry.value? link.attributeName = some (.unitReference offset) →
      unit.entries.get? offset = some origin → data.Refers (unit, entry) link (unit, origin)
  | across {unit target : CompilationUnit} {entry origin : Entry} {link : OriginLink}
      {offset index inside : Nat} :
      entry.value? link.attributeName = some (.infoReference offset) →
      data.OffersFirst offset index inside → data.units[index]? = some target →
      target.entries.get? inside = some origin → data.Refers (unit, entry) link (target, origin)

/-- The references lead one after the other from the first entry to the last one. -/
inductive Way (data : DebugData) : UnitEntry → List OriginLink → UnitEntry → Prop where
  | here {start : UnitEntry} : data.Way start [] start
  | through {start next last : UnitEntry} {link : OriginLink} {links : List OriginLink} :
      data.Refers start link next → data.Way next links last → data.Way start (link :: links) last

/-- A way of at most `hops` references leads from one entry to the other. -/
def Reaches (data : DebugData) (hops : Nat) (start last : UnitEntry) : Prop :=
  ∃ way, way.length ≤ hops ∧ data.Way start way last

/-- No entry within reach carries the attribute. -/
def Lacks (data : DebugData) (hops : Nat) (start : UnitEntry) (name : AttributeName) : Prop :=
  ∀ carrier, data.Reaches hops start carrier → ∀ text, ¬ carrier.Carries name text

/-- The text is carried at the end of a way, and at the end of no way that stands before it. -/
inductive IsFirst (data : DebugData) (hops : Nat) (start : UnitEntry) (name : AttributeName) :
    String → Prop where
  | text (way : List OriginLink) (carrier : UnitEntry) {text : String} :
      way.length ≤ hops → data.Way start way carrier → carrier.Carries name text →
      (∀ earlier other, List.Lex OriginLink.Before earlier way → earlier.length ≤ hops →
        data.Way start earlier other → ∀ text, ¬ other.Carries name text) →
      data.IsFirst hops start name text

variable {data : DebugData} {start next last other : UnitEntry} {link : OriginLink}
  {links : List OriginLink} {hops : Nat} {name : AttributeName} {text : String}

theorem refers_iff : data.Refers start link next ↔
    data.origin? start.1 start.2 link.attributeName = some next := by
  obtain ⟨unit, entry⟩ := start
  unfold origin?
  constructor
  · rintro (⟨value, found⟩ | ⟨value, place, target, found⟩)
    · simp [value, found]
    · simp [value, unitAt?_eq_some_iff_offersFirst.mpr place, target, found]
  · intro leads
    split at leads
    · rename_i offset value
      obtain ⟨origin, found, rfl⟩ := Option.map_eq_some_iff.mp leads
      exact .within value found
    · rename_i offset value
      obtain ⟨⟨index, inside⟩, place, leads⟩ := Option.bind_eq_some_iff.mp leads
      obtain ⟨target, unitThere, leads⟩ := Option.bind_eq_some_iff.mp leads
      obtain ⟨origin, found, equality⟩ := Option.bind_eq_some_iff.mp leads
      cases equality
      exact .across value (offersFirst_of_unitAt? place) unitThere found
    · contradiction

theorem Refers.unique (refers : data.Refers start link next)
    (refersOther : data.Refers start link other) : next = other :=
  Option.some.inj ((refers_iff.mp refers).symm.trans (refers_iff.mp refersOther))

theorem Way.unique (way : data.Way start links last) (wayOther : data.Way start links other) :
    last = other := by
  induction way with
  | here =>
      cases wayOther
      rfl
  | through refers _ induction =>
      cases wayOther with
      | through refersOther rest =>
          cases refers.unique refersOther
          exact induction rest

/-- The text that is inherited over one reference. -/
def textThrough? (data : DebugData) (name : AttributeName) (hops : Nat) (start : UnitEntry)
    (link : OriginLink) : Option String :=
  (data.origin? start.1 start.2 link.attributeName).bind fun origin =>
    data.inheritedText? name hops origin.1 origin.2

theorem inheritedText?_succ :
    data.inheritedText? name (hops + 1) start.1 start.2 =
      ((ownText? start.1 start.2 name).or
        (data.textThrough? name hops start .abstractOrigin)).or
          (data.textThrough? name hops start .specification) :=
  rfl

theorem exists_of_textThrough? (found : data.textThrough? name hops start link = some text) :
    ∃ next, data.Refers start link next ∧
      data.inheritedText? name hops next.1 next.2 = some text := by
  obtain ⟨next, refers, inherited⟩ := Option.bind_eq_some_iff.mp found
  exact ⟨next, refers_iff.mpr refers, inherited⟩

theorem lacks_zero : data.Lacks 0 start name ↔ ∀ text, ¬ start.Carries name text := by
  constructor
  · intro lacks
    exact lacks start ⟨[], Nat.le_refl 0, .here⟩
  · rintro none carrier ⟨way, within, leads⟩
    cases leads with
    | here => exact none
    | through => contradiction

theorem lacks_succ : data.Lacks (hops + 1) start name ↔
    (∀ text, ¬ start.Carries name text) ∧
      ∀ link next, data.Refers start link next → data.Lacks hops next name := by
  constructor
  · intro lacks
    refine ⟨lacks start ⟨[], Nat.zero_le _, .here⟩, ?_⟩
    rintro link next refers carrier ⟨way, within, leads⟩
    exact lacks carrier ⟨link :: way, Nat.succ_le_succ within, .through refers leads⟩
  · rintro ⟨none, lacks⟩ carrier ⟨way, within, leads⟩
    cases leads with
    | here => exact none
    | through refers leads =>
        exact lacks _ _ refers carrier ⟨_, Nat.le_of_succ_le_succ within, leads⟩

theorem ownText?_eq_none_iff :
    ownText? start.1 start.2 name = none ↔ ∀ text, ¬ start.Carries name text := by
  simp only [Option.eq_none_iff_forall_ne_some, UnitEntry.carries_iff, Ne]

theorem textThrough?_eq_none_iff : data.textThrough? name hops start link = none ↔
    ∀ next, data.Refers start link next → data.inheritedText? name hops next.1 next.2 = none := by
  simp only [textThrough?, Option.bind_eq_none_iff, refers_iff]

theorem inheritedText?_eq_none_iff :
    data.inheritedText? name hops start.1 start.2 = none ↔ data.Lacks hops start name := by
  induction hops generalizing start with
  | zero => exact ownText?_eq_none_iff.trans lacks_zero.symm
  | succ hops induction =>
      rw [inheritedText?_succ, lacks_succ]
      simp only [Option.or_eq_none_iff, ownText?_eq_none_iff, textThrough?_eq_none_iff, induction]
      constructor
      · rintro ⟨⟨none, overOrigin⟩, overSpecification⟩
        refine ⟨none, fun link => ?_⟩
        cases link with
        | abstractOrigin => exact overOrigin
        | specification => exact overSpecification
      · rintro ⟨none, overAny⟩
        exact ⟨⟨none, overAny .abstractOrigin⟩, overAny .specification⟩

theorem IsFirst.here (carries : start.Carries name text) : data.IsFirst hops start name text := by
  refine .text [] start (Nat.zero_le _) .here carries ?_
  intro earlier other before
  cases before

/-- A text that is first behind a reference is first, if neither the entry itself nor what lies
behind an earlier reference carries one. -/
theorem IsFirst.through (refers : data.Refers start link next)
    (first : data.IsFirst hops next name text) (none : ∀ text, ¬ start.Carries name text)
    (lacks : ∀ earlier other, OriginLink.Before earlier link → data.Refers start earlier other →
      data.Lacks hops other name) :
    data.IsFirst (hops + 1) start name text := by
  obtain ⟨way, carrier, within, leads, carries, noneBefore⟩ := first
  refine .text (link :: way) carrier (Nat.succ_le_succ within) (.through refers leads) carries ?_
  intro earlier other before withinThere leadsThere
  cases leadsThere with
  | here => exact none
  | through refersThere leadsThere =>
      have withinRest := Nat.le_of_succ_le_succ withinThere
      cases before with
      | rel before => exact lacks _ _ before refersThere _ ⟨_, withinRest, leadsThere⟩
      | cons before =>
          cases refers.unique refersThere
          exact noneBefore _ _ before withinRest leadsThere

theorem isFirst_of_inheritedText?
    (found : data.inheritedText? name hops start.1 start.2 = some text) :
    data.IsFirst hops start name text := by
  induction hops generalizing start with
  | zero => exact .here (UnitEntry.carries_iff.mpr found)
  | succ hops induction =>
      rw [inheritedText?_succ, Option.or_eq_some_iff, Option.or_eq_some_iff, Option.or_eq_none_iff,
        ownText?_eq_none_iff] at found
      rcases found with (own | ⟨none, overOrigin⟩) | ⟨⟨none, nothing⟩, overSpecification⟩
      · exact .here (UnitEntry.carries_iff.mpr own)
      · obtain ⟨next, refers, inherited⟩ := exists_of_textThrough? overOrigin
        refine .through refers (induction inherited) none ?_
        intro earlier other before
        cases before
      · obtain ⟨next, refers, inherited⟩ := exists_of_textThrough? overSpecification
        refine .through refers (induction inherited) none ?_
        rintro _ other ⟨⟩ refersThere
        exact inheritedText?_eq_none_iff.mp (textThrough?_eq_none_iff.mp nothing other refersThere)

theorem IsFirst.unique {otherText : String} (first : data.IsFirst hops start name text)
    (firstOther : data.IsFirst hops start name otherText) : text = otherText := by
  obtain ⟨way, _, within, leads, carries, noneBefore⟩ := first
  obtain ⟨wayOther, _, withinOther, leadsOther, carriesOther, noneBeforeOther⟩ := firstOther
  rcases OriginLink.trichotomy way wayOther with before | rfl | behind
  · exact absurd carries (noneBeforeOther _ _ before within leads _)
  · cases leads.unique leadsOther
    rw [UnitEntry.carries_iff] at carries carriesOther
    exact Option.some.inj (carries.symm.trans carriesOther)
  · exact absurd carriesOther (noneBefore _ _ behind withinOther leadsOther _)

theorem inheritedText?_eq_some_iff :
    data.inheritedText? name hops start.1 start.2 = some text ↔
      data.IsFirst hops start name text := by
  refine ⟨isFirst_of_inheritedText?, fun first => ?_⟩
  have ⟨_, _, within, leads, carries, _⟩ := first
  cases found : data.inheritedText? name hops start.1 start.2 with
  | none =>
      exact absurd carries (inheritedText?_eq_none_iff.mp found _ ⟨_, within, leads⟩ _)
  | some other => rw [first.unique (isFirst_of_inheritedText? found)]

theorem name?_eq_or : data.name? start.1 start.2 =
    (data.inheritedText? .linkageName 8 start.1 start.2).or
      ((data.inheritedText? .olderLinkageName 8 start.1 start.2).or
        (data.inheritedText? .plainName 8 start.1 start.2)) := by
  simp only [name?, nameAttributes, originDepth, List.findSome?_cons, List.findSome?_nil]
  cases data.inheritedText? .linkageName 8 start.1 start.2 with
  | some text => rfl
  | none =>
      cases data.inheritedText? .olderLinkageName 8 start.1 start.2 with
      | some text => rfl
      | none => cases data.inheritedText? .plainName 8 start.1 start.2 <;> rfl

/-- An entry has no name if no entry within eight references carries one.  Otherwise its name is the
first text of the linkage name, if that is carried anywhere within reach, or else of its older form,
or else of the plain name. -/
theorem name?_exact (data : DebugData) (start : UnitEntry) :
    (data.name? start.1 start.2 = none ↔
        data.Lacks 8 start .linkageName ∧ data.Lacks 8 start .olderLinkageName ∧
          data.Lacks 8 start .plainName) ∧
      ∀ text, data.name? start.1 start.2 = some text ↔
        data.IsFirst 8 start .linkageName text ∨
          data.Lacks 8 start .linkageName ∧
            (data.IsFirst 8 start .olderLinkageName text ∨
              data.Lacks 8 start .olderLinkageName ∧ data.IsFirst 8 start .plainName text) := by
  simp only [name?_eq_or, Option.or_eq_none_iff, Option.or_eq_some_iff,
    inheritedText?_eq_none_iff, inheritedText?_eq_some_iff, implies_true, and_self]

end DebugData

end Dwarf

end Symbolization
