import LoxScanner.Proofs.OpenStrings

/-!
# Characters that start nothing

A scan reports a character that starts nothing and goes on behind it. Such a character
is to its neighbours what a space is: it continues no lexeme and ends no line. So a
text with a space in place of each of these characters has the same tokens on the same
lines.
-/

namespace LoxScanner

/-! ## Spaces at indices -/

/-- A text that starts at the index `first`, with a space at each of some indices. -/
def blankAt (indices : List Nat) (first : Nat) (text : List Char) : List Char :=
  text.mapIdx fun index c => if first + index ∈ indices then ' ' else c

section BlankAt

variable {indices : List Nat} {first : Nat}

theorem getElem?_blankAt (text : List Char) (index : Nat) :
    (blankAt indices first text)[index]? =
      text[index]?.map fun c => if first + index ∈ indices then ' ' else c :=
  List.getElem?_mapIdx

theorem blankAt_append (text others : List Char) :
    blankAt indices first (text ++ others) =
      blankAt indices first text ++ blankAt indices (first + text.length) others := by
  simp only [blankAt, List.mapIdx_append, Nat.add_assoc, Nat.add_comm text.length]

theorem blankAt_singleton (c : Char) : blankAt (first :: indices) first [c] = [' '] := by
  simp [blankAt]

/-- An index before a text is none of the text's. -/
theorem blankAt_cons_of_lt {index : Nat} (earlier : index < first) (text : List Char) :
    blankAt (index :: indices) first text = blankAt indices first text := by
  rw [blankAt, blankAt, List.mapIdx_eq_mapIdx_iff]
  intro offset _
  have different : first + offset ≠ index := by omega
  simp only [List.mem_cons, different, false_or]

theorem blankAt_eq_self {text : List Char}
    (beyond : ∀ index ∈ indices, first + text.length ≤ index) :
    blankAt indices first text = text := by
  apply List.ext_getElem?
  intro offset
  rw [getElem?_blankAt]
  by_cases inText : offset < text.length
  · have absent : first + offset ∉ indices := by
      intro member
      have later := beyond _ member
      omega
    simp only [if_neg absent, Option.map_id']
  · rw [List.getElem?_eq_none (Nat.le_of_not_lt inText)]
    rfl

end BlankAt

/-! ## Spaces in place of stray characters -/

/-- Where a segment starts that is reported as an unexpected character. -/
def Placement.strayIndex? (place : Placement) : Option Nat :=
  match place.piece.cause? with
  | some (.unexpectedCharacter _) => some place.before.length
  | _ => none

def strayIndicesFrom (before : List Char) (pieces : List Segment) : List Nat :=
  (placementsFrom before pieces).filterMap Placement.strayIndex?

/-- The indices of the characters of a text that its scan reports as unexpected. -/
def strayIndices (text : List Char) : List Nat :=
  strayIndicesFrom [] (segments text)

/-- A text with a space in place of each character that its scan reports as unexpected. -/
def blankStrays (text : List Char) : List Char :=
  blankAt (strayIndices text) 0 text

/-- A segment with a space in place of a character that starts nothing. -/
def Segment.blanked : Segment → Segment
  | stray _ => space ' '
  | piece => piece

theorem Segment.blanked_of_ne {piece : Segment} (notStray : ∀ c, piece ≠ stray c) :
    piece.blanked = piece := by
  cases piece with
  | stray c => exact absurd rfl (notStray c)
  | _ => rfl

section Indices

variable {before : List Char} {piece : Segment} {pieces : List Segment}

theorem strayIndicesFrom_stray_cons (before : List Char) (c : Char) (pieces : List Segment) :
    strayIndicesFrom before (.stray c :: pieces) =
      before.length :: strayIndicesFrom (before ++ [c]) pieces :=
  rfl

theorem strayIndicesFrom_cons_of_ne (notStray : ∀ c, piece ≠ .stray c) :
    strayIndicesFrom before (piece :: pieces) =
      strayIndicesFrom (before ++ piece.text) pieces := by
  cases piece with
  | stray c => exact absurd rfl (notStray c)
  | _ => rfl

theorem length_le_of_mem_strayIndicesFrom {index : Nat}
    (member : index ∈ strayIndicesFrom before pieces) : before.length ≤ index := by
  induction pieces generalizing before with
  | nil => cases member
  | cons piece pieces ih =>
      by_cases isStray : ∃ c, piece = .stray c
      · obtain ⟨c, rfl⟩ := isStray
        rw [strayIndicesFrom_stray_cons] at member
        rcases List.mem_cons.1 member with rfl | later
        · exact Nat.le_refl _
        · have beyond := ih later
          rw [List.length_append] at beyond
          omega
      · rw [strayIndicesFrom_cons_of_ne (not_exists.1 isStray)] at member
        have beyond := ih member
        rw [List.length_append] at beyond
        omega

theorem blankAt_strayIndicesFrom (before : List Char) (pieces : List Segment) :
    blankAt (strayIndicesFrom before pieces) before.length (pieces.flatMap Segment.text) =
      pieces.flatMap fun piece => piece.blanked.text := by
  induction pieces generalizing before with
  | nil => rfl
  | cons piece pieces ih =>
      have others := ih (before ++ piece.text)
      rw [List.length_append] at others
      rw [List.flatMap_cons, List.flatMap_cons, blankAt_append, ← others]
      by_cases isStray : ∃ c, piece = .stray c
      · obtain ⟨c, rfl⟩ := isStray
        have earlier : before.length < before.length + (Segment.stray c).text.length :=
          Nat.lt_succ_self _
        rw [strayIndicesFrom_stray_cons, blankAt_cons_of_lt earlier, Segment.text,
          blankAt_singleton]
        rfl
      · have notStray := not_exists.1 isStray
        have beyond : ∀ index ∈ strayIndicesFrom (before ++ piece.text) pieces,
            before.length + piece.text.length ≤ index := by
          intro index member
          have later := length_le_of_mem_strayIndicesFrom member
          rw [List.length_append] at later
          exact later
        rw [strayIndicesFrom_cons_of_ne notStray, Segment.blanked_of_ne notStray,
          blankAt_eq_self beyond]

end Indices

theorem blankStrays_eq_flatMap (text : List Char) :
    blankStrays text = (segments text).flatMap fun piece => piece.blanked.text := by
  have blanked := blankAt_strayIndicesFrom [] (segments text)
  rw [flatMap_text_segments] at blanked
  exact blanked

/-! ## Scans without stray characters -/

section Blanked

variable {pieces : List Segment} {text : List Char}

/-- As far as a text continues a lexeme, the text with spaces does. -/
theorem prefix_takeWhile_blanked (pieces : List Segment) :
    (pieces.flatMap fun piece => piece.blanked.text).takeWhile continuesLexeme <+:
      pieces.flatMap Segment.text := by
  induction pieces with
  | nil => exact List.prefix_rfl
  | cons piece pieces ih =>
      rw [List.flatMap_cons, List.flatMap_cons]
      by_cases isStray : ∃ c, piece = .stray c
      · obtain ⟨c, rfl⟩ := isStray
        have stops : continuesLexeme ' ' = false := rfl
        exact (prefix_takeWhile_append_cons stops [] _).trans List.nil_prefix
      · rw [Segment.blanked_of_ne (not_exists.1 isStray)]
        exact prefix_takeWhile_append ih piece.text

/-- A space takes the place of no line feed and of no end of a text. -/
theorem head?_blanked (tiling : Tiling Segment.Longest pieces text)
    (lineEnds : ∀ c, text.head? = some c → c = lineFeed) :
    (pieces.flatMap fun piece => piece.blanked.text).head? = text.head? := by
  cases tiling with
  | nil => rfl
  | @cons piece pieces rest longest _ =>
      obtain ⟨first, others, textEq, lead⟩ := Segment.exists_lead longest.wellFormed
      have isHead : (piece.text ++ rest).head? = some first := by rw [textEq]; rfl
      have isFeed : first = lineFeed := lineEnds first isHead
      have notStray : ∀ c, piece ≠ .stray c := by
        rintro c rfl
        rw [isFeed] at lead
        cases lead
      rw [List.flatMap_cons, Segment.blanked_of_ne notStray, isHead, textEq]
      rfl

theorem Tiling.blanked (tiling : Tiling Segment.Longest pieces text) :
    Tiling Segment.Longest (pieces.map Segment.blanked)
      (pieces.flatMap fun piece => piece.blanked.text) := by
  induction tiling with
  | nil => exact .nil
  | @cons piece pieces rest longest tiling ih =>
      rw [List.map_cons, List.flatMap_cons]
      refine .cons ?_ ih
      by_cases isStray : ∃ c, piece = .stray c
      · obtain ⟨c, rfl⟩ := isStray
        exact ⟨Or.inl rfl, trivial⟩
      · rw [Segment.blanked_of_ne (not_exists.1 isStray)]
        have sameRun := prefix_takeWhile_blanked pieces
        rw [tiling.flatMap_text] at sameRun
        apply longest.of_run sameRun
        · rintro remark rfl c isHead
          rw [head?_blanked tiling longest.ends] at isHead
          exact longest.ends c isHead
        · intro isOpen
          have atEnd : rest = [] := longest.eq_nil_of_isOpen isOpen
          have sameHead := head?_blanked tiling (by simp [atEnd])
          rw [atEnd] at sameHead
          exact List.head?_eq_none_iff.1 sameHead

theorem segments_blankStrays (text : List Char) :
    segments (blankStrays text) = (segments text).map Segment.blanked := by
  rw [blankStrays_eq_flatMap]
  exact (segments_tiling text).blanked.segments_eq

end Blanked

def Event.isStray : Event → Bool
  | token _ => false
  | diagnostic found => !found.cause.isOpenString

theorem lineAfter_blanked {piece : Segment} (wellFormed : piece.WellFormed) (line : UInt32) :
    lineAfter line piece.blanked.text = lineAfter line piece.text := by
  cases piece with
  | stray c =>
      obtain ⟨notBlank, -⟩ := wellFormed
      have absent : lineFeed ∉ [c] := by
        intro member
        rw [← List.mem_singleton.1 member] at notBlank
        exact notBlank (by decide)
      have space : lineFeed ∉ [' '] := by decide
      rw [Segment.blanked, Segment.text, Segment.text, lineAfter_of_not_mem absent,
        lineAfter_of_not_mem space]
  | _ => rfl

theorem eventsFrom_blanked (label : String) (line : UInt32) {pieces : List Segment}
    (wellFormed : ∀ piece ∈ pieces, piece.WellFormed) :
    eventsFrom label line (pieces.map Segment.blanked) =
      (eventsFrom label line pieces).filter fun event => !event.isStray := by
  induction pieces generalizing line with
  | nil => simp
  | cons piece pieces ih =>
      obtain ⟨pieceWellFormed, others⟩ := List.forall_mem_cons.1 wellFormed
      have eventEq : (piece.blanked.event? label line).toList =
          (piece.event? label line).toList.filter fun event => !event.isStray := by
        cases piece <;> rfl
      rw [List.map_cons, eventsFrom_cons, eventsFrom_cons, List.filter_append, eventEq,
        lineAfter_blanked pieceWellFormed, ih _ others]

theorem lineAfter_flatMap_blanked (line : UInt32) {pieces : List Segment}
    (wellFormed : ∀ piece ∈ pieces, piece.WellFormed) :
    lineAfter line (pieces.flatMap fun piece => piece.blanked.text) =
      lineAfter line (pieces.flatMap Segment.text) := by
  induction pieces generalizing line with
  | nil => rfl
  | cons piece pieces ih =>
      obtain ⟨pieceWellFormed, others⟩ := List.forall_mem_cons.1 wellFormed
      rw [List.flatMap_cons, List.flatMap_cons, ← lineAfter_lineAfter, ← lineAfter_lineAfter,
        lineAfter_blanked pieceWellFormed, ih _ others]

/-- A text with a space in place of each character that is reported as unexpected. -/
def withoutStrays (source : String) : String :=
  String.ofList (blankStrays source.toList)

theorem toList_withoutStrays (source : String) :
    (withoutStrays source).toList = blankStrays source.toList :=
  String.toList_ofList

theorem events_withoutStrays (source label : String) :
    events (withoutStrays source) label =
      (events source label).filter fun event => !event.isStray := by
  rw [events, events, toList_withoutStrays, segments_blankStrays]
  exact eventsFrom_blanked label 1 fun piece member => wellFormed_of_mem_segments member

theorem lineAfter_withoutStrays (source : String) :
    lineAfter 1 (withoutStrays source).toList = lineAfter 1 source.toList := by
  rw [toList_withoutStrays, blankStrays_eq_flatMap,
    lineAfter_flatMap_blanked 1 fun piece member => wellFormed_of_mem_segments member,
    flatMap_text_segments]

theorem tokens_withoutStrays (source : String) (file : Option String) :
    (tokenize (withoutStrays source) file).tokens = (tokenize source file).tokens := by
  have kept : (fun event : Event => if !event.isStray then event.token? else none) =
      Event.token? := by
    funext event
    cases event with
    | token found => rfl
    | diagnostic found => simp [Event.token?]
  rw [tokenize, tokenize, events_withoutStrays, lineAfter_withoutStrays, List.filterMap_filter,
    kept]

theorem diagnostics_withoutStrays (source : String) (file : Option String) :
    (tokenize (withoutStrays source) file).diagnostics =
      (tokenize source file).diagnostics.filter fun diagnostic =>
        diagnostic.cause.isOpenString := by
  rw [diagnostics_eq_filterMap_events, diagnostics_eq_filterMap_events, events_withoutStrays,
    List.filterMap_filter, List.filter_filterMap]
  congr 1
  funext event
  cases event with
  | token found => rfl
  | diagnostic found =>
      simp only [Event.isStray, Bool.not_not, Event.diagnostic?, Option.filter_some]

/-! ## Where the strays stand -/

theorem Placement.strayIndex?_eq_some_iff {place : Placement} {index : Nat} :
    place.strayIndex? = some index ↔
      place.before.length = index ∧ ∃ c, place.piece = .stray c := by
  obtain ⟨before, piece, after⟩ := place
  cases piece <;> simp [strayIndex?, Segment.cause?]

theorem mem_strayIndices_iff {text : List Char} {index : Nat} :
    index ∈ strayIndices text ↔
      ∃ place ∈ placements text, place.before.length = index ∧
        ∃ c, place.piece = .stray c := by
  have member : index ∈ strayIndices text ↔
      ∃ place ∈ placements text, place.strayIndex? = some index := List.mem_filterMap
  simp only [member, Placement.strayIndex?_eq_some_iff]

/-- A diagnostic about an unexpected character is one about a stray. -/
theorem Placement.exists_stray_iff (label : String) (place : Placement) :
    (∃ c, place.piece = .stray c) ↔
      ∃ diagnostic c, place.diagnostic? label = some diagnostic ∧
        diagnostic.cause = .unexpectedCharacter c := by
  obtain ⟨before, piece, after⟩ := place
  cases piece <;> simp [diagnostic?, Segment.cause?]

theorem exists_getElem?_of_mem_strayIndices {text : List Char} {index : Nat}
    (member : index ∈ strayIndices text) : ∃ c, text[index]? = some c := by
  obtain ⟨place, placeMember, indexEq, c, isStray⟩ := mem_strayIndices_iff.1 member
  refine ⟨c, ?_⟩
  rw [← before_append_of_mem_placements placeMember, ← indexEq, isStray, Segment.text]
  simp

theorem getElem?_withoutStrays (source : String) (index : Nat) :
    (withoutStrays source).toList[index]? =
      if index ∈ strayIndices source.toList then some ' ' else source.toList[index]? := by
  rw [toList_withoutStrays, blankStrays, getElem?_blankAt, Nat.zero_add]
  by_cases isStray : index ∈ strayIndices source.toList
  · obtain ⟨c, isCharacter⟩ := exists_getElem?_of_mem_strayIndices isStray
    rw [isCharacter, if_pos isStray, Option.map_some, if_pos isStray]
  · simp only [if_neg isStray, Option.map_id']

/-- A character that is reported as unexpected disturbs nothing around it. The text with a
space in place of each such character, where it is reported and nowhere else, has the same
tokens on the same lines, and of the diagnostics those of strings left open. -/
theorem tokenize_withoutStrays (source : String) (file : Option String) :
    (tokenize source file).diagnostics =
      (placements source.toList).filterMap
        (Placement.diagnostic? (file.getD defaultLabel)) ∧
    (∀ index, index ∈ strayIndices source.toList ↔
      ∃ place ∈ placements source.toList, place.before.length = index ∧
        ∃ diagnostic c, place.diagnostic? (file.getD defaultLabel) = some diagnostic ∧
          diagnostic.cause = .unexpectedCharacter c) ∧
    (∀ index, (withoutStrays source).toList[index]? =
      if index ∈ strayIndices source.toList then some ' ' else source.toList[index]?) ∧
    (tokenize (withoutStrays source) file).tokens = (tokenize source file).tokens ∧
    (tokenize (withoutStrays source) file).diagnostics =
      (tokenize source file).diagnostics.filter fun diagnostic =>
        diagnostic.cause.isOpenString := by
  refine ⟨diagnostics_tokenize source file, ?_, getElem?_withoutStrays source,
    tokens_withoutStrays source file, diagnostics_withoutStrays source file⟩
  intro index
  rw [mem_strayIndices_iff]
  simp only [Placement.exists_stray_iff (file.getD defaultLabel)]

example : withoutStrays "1.@5 \"@\" // @\n#/\x00/" = "1. 5 \"@\" // @\n / /" := by
  decide +kernel

end LoxScanner
