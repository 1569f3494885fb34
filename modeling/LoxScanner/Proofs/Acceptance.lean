import LoxScanner.Proofs.Placement

/-!
# Texts without a diagnostic

A text is accepted if it is, in any way at all, a sequence of lexemes, blanks and
comments. A scan cuts it in its own way, and need not find the sequence that was
meant: `1` and `.5` are found as `1.5`, and `=` and `==` as `==` and `=`. The
characters in which the two can differ are elements wherever they stand, so that
what a cut leaves of an accepted text is accepted too.
-/

namespace LoxScanner

def Segment.IsElement : Segment → Prop
  | lexeme _ => True
  | space _ => True
  | comment _ => True
  | stray _ => False
  | openString _ => False

/-- A text that is a sequence of elements, each with a text after it that it may
precede. -/
inductive Accepted : List Char → Prop
  | nil : Accepted []
  | cons {piece : Segment} {rest : List Char} :
      piece.IsElement → piece.Fits rest → Accepted rest →
      Accepted (piece.text ++ rest)

theorem Accepted.exists_first {text : List Char} (accepted : Accepted text)
    (notNil : text ≠ []) :
    ∃ (piece : Segment) (after : List Char), piece.text ++ after = text ∧
      piece.IsElement ∧ piece.Fits after ∧ Accepted after := by
  cases accepted with
  | nil => exact absurd rfl notNil
  | @cons piece after element fits accepted =>
      exact ⟨piece, after, rfl, element, fits, accepted⟩

/-! ## Characters that are elements wherever they stand -/

/-- Whether a character is a word, a numeral or a symbol by itself, whatever the
text after it. -/
def IsLoose (c : Char) : Prop :=
  isWordChar c = true ∨ c = '.' ∨ c = '='

private theorem exists_element_of_isLoose {c : Char} (loose : IsLoose c) :
    ∃ piece : Segment, piece.text = [c] ∧ piece.IsElement ∧
      ∀ rest, piece.Fits rest := by
  rcases loose with inWord | rfl | rfl
  · rcases isWordChar_eq_true_iff.1 inWord with starts | isDigit
    · refine ⟨.lexeme (.word [c]), rfl, trivial, fun rest => ⟨?_, trivial⟩⟩
      exact ⟨c, [], rfl, starts, by simp⟩
    · refine ⟨.lexeme (.number ⟨[c], []⟩), rfl, trivial, fun rest => ⟨?_, trivial⟩⟩
      exact ⟨by simp, by simpa using isDigit, by simp⟩
  · exact ⟨.lexeme (.symbol .dot), rfl, trivial, fun rest => ⟨trivial, trivial⟩⟩
  · exact ⟨.lexeme (.symbol .equal), rfl, trivial, fun rest => ⟨trivial, trivial⟩⟩

theorem Accepted.append {run rest : List Char} (loose : ∀ c ∈ run, IsLoose c)
    (accepted : Accepted rest) : Accepted (run ++ rest) := by
  induction run with
  | nil => exact accepted
  | cons c others ih =>
      obtain ⟨piece, textEq, element, fits⟩ :=
        exists_element_of_isLoose (loose c (by simp))
      have acceptedOthers : Accepted (others ++ rest) :=
        ih fun d member => loose d (List.mem_cons_of_mem c member)
      have whole := Accepted.cons element (fits (others ++ rest)) acceptedOthers
      rw [textEq] at whole
      exact whole

def Lead.IsExtensible : Lead → Prop
  | letter => True
  | digit => True
  | mark _ => True
  | _ => False

theorem Lead.isExtensible_of_isLoose {c : Char} (loose : IsLoose c) :
    (Lead.of c).IsExtensible := by
  rcases loose with inWord | rfl | rfl
  · rcases Lead.of_of_isWordChar inWord with isLetter | isDigit
    · rw [isLetter]
      trivial
    · rw [isDigit]
      trivial
  · trivial
  · trivial

namespace Segment

/-- Whether a segment is a word, a numeral or a symbol. A longer segment may start
with its text. -/
structure IsExtensible (piece : Segment) : Prop where
  lead : piece.lead.IsExtensible
  not_comment : ∀ remark, piece ≠ .comment remark

private theorem isLoose_of_isDigit {c : Char} (isDigit : c.isDigit = true) :
    IsLoose c :=
  Or.inl (isWordChar_eq_true_iff.2 (Or.inr isDigit))

private theorem isLoose_of_mem_text {numeral : Numeral}
    (wellFormed : numeral.WellFormed) :
    ∀ c ∈ numeral.text, IsLoose c := by
  obtain ⟨whole, fraction⟩ := numeral
  intro c member
  cases fraction with
  | nil => exact isLoose_of_isDigit (wellFormed.whole_digits c member)
  | cons digit others =>
      rcases List.mem_append.1 member with inWhole | inFraction
      · exact isLoose_of_isDigit (wellFormed.whole_digits c inWhole)
      · rcases List.mem_cons.1 inFraction with rfl | inFraction
        · exact Or.inr (Or.inl rfl)
        · exact isLoose_of_isDigit (wellFormed.fraction_digits c inFraction)

/-- All that can be added to an extensible segment is loose. -/
theorem isLoose_of_mem_tail {piece : Segment} (wellFormed : piece.WellFormed)
    (extensible : piece.IsExtensible) :
    ∀ c ∈ piece.text.tail, IsLoose c := by
  intro c member
  cases piece with
  | lexeme found =>
      cases found with
      | symbol mark =>
          rcases mark.single_or_longer with ⟨-, d, spelling⟩ | ⟨-, d, spelling⟩
          · simp [text, Lexeme.text, spelling] at member
          · simp only [text, Lexeme.text, spelling, List.tail_cons,
              List.mem_singleton] at member
            exact Or.inr (Or.inr member)
      | word letters =>
          obtain ⟨first, others, rfl, -, inWord⟩ := wellFormed
          exact Or.inl (inWord c member)
      | number numeral =>
          exact isLoose_of_mem_text wellFormed c (List.mem_of_mem_tail member)
      | string contents => exact extensible.lead.elim
  | comment remark => exact absurd rfl (extensible.not_comment remark)
  | space character => exact extensible.lead.elim
  | stray character => exact extensible.lead.elim
  | openString contents => exact extensible.lead.elim

theorem Fits.longest {piece : Segment} {rest : List Char} (fits : piece.Fits rest)
    (element : piece.IsElement) (notExtensible : ¬ piece.IsExtensible) :
    piece.Longest rest := by
  obtain ⟨wellFormed, mayPrecede⟩ := fits
  refine ⟨wellFormed, ?_⟩
  cases piece with
  | lexeme found =>
      cases found with
      | symbol mark => exact absurd ⟨trivial, by simp⟩ notExtensible
      | word letters => exact absurd ⟨trivial, by simp⟩ notExtensible
      | number numeral => exact absurd ⟨trivial, by simp⟩ notExtensible
      | string contents => trivial
  | space character => trivial
  | comment remark =>
      intro c isHead
      rcases mayPrecede with rfl | isLineFeed
      · cases isHead
      · rw [isLineFeed] at isHead
        exact (Option.some.inj isHead).symm
  | stray character => cases element
  | openString contents => cases element

theorem IsExtensible.isElement {piece : Segment} (extensible : piece.IsExtensible) :
    piece.IsElement := by
  cases piece with
  | lexeme found => trivial
  | space character => trivial
  | comment remark => trivial
  | stray character => exact extensible.lead
  | openString contents => exact extensible.lead

end Segment

/-! ## What a cut leaves of an accepted text -/

namespace Accepted

private theorem of_cons {c : Char} {rest : List Char} (loose : IsLoose c)
    (accepted : Accepted (c :: rest)) : Accepted rest := by
  obtain ⟨piece, after, whole, element, fits, acceptedAfter⟩ :=
    accepted.exists_first (by simp)
  have extensible : piece.IsExtensible := by
    refine ⟨?_, ?_⟩
    · rw [← Segment.lead_eq_of_append_eq_cons fits.wellFormed whole]
      exact Lead.isExtensible_of_isLoose loose
    · rintro remark rfl
      cases whole
      simp [IsLoose, isWordChar] at loose
  have tailLoose := Segment.isLoose_of_mem_tail fits.wellFormed extensible
  obtain ⟨first, others, textEq, -⟩ := Segment.exists_lead fits.wellFormed
  rw [textEq, List.tail_cons] at tailLoose
  rw [textEq, List.cons_append, List.cons.injEq] at whole
  rw [← whole.2]
  exact append tailLoose acceptedAfter

/-- Loose characters at the start of an accepted text can be taken away. -/
theorem of_append {run rest : List Char} (loose : ∀ c ∈ run, IsLoose c)
    (accepted : Accepted (run ++ rest)) : Accepted rest := by
  induction run with
  | nil => exact accepted
  | cons c others ih =>
      have acceptedOthers : Accepted (others ++ rest) :=
        of_cons (loose c (by simp)) accepted
      exact ih (fun d member => loose d (List.mem_cons_of_mem c member)) acceptedOthers

/-- Two extensible segments at the start of a text leave texts that are both
accepted or both not. -/
private theorem of_extensible {piece other : Segment} {after left : List Char}
    (wellFormed : piece.WellFormed) (extensible : piece.IsExtensible)
    (otherWellFormed : other.WellFormed) (otherExtensible : other.IsExtensible)
    (whole : piece.text ++ after = other.text ++ left) (accepted : Accepted after) :
    Accepted left := by
  obtain ⟨first, others, textEq, -⟩ := Segment.exists_lead wellFormed
  obtain ⟨start, more, otherTextEq, -⟩ := Segment.exists_lead otherWellFormed
  have loose := Segment.isLoose_of_mem_tail wellFormed extensible
  have otherLoose := Segment.isLoose_of_mem_tail otherWellFormed otherExtensible
  rw [textEq, List.tail_cons] at loose
  rw [otherTextEq, List.tail_cons] at otherLoose
  rw [textEq, otherTextEq, List.cons_append, List.cons_append, List.cons.injEq] at whole
  -- One of the two segments goes on with loose characters where the other ends.
  rcases List.append_eq_append_iff.1 whole.2 with
    ⟨extra, moreEq, afterEq⟩ | ⟨extra, othersEq, leftEq⟩
  · rw [afterEq] at accepted
    exact of_append (fun c member => otherLoose c (by simp [moreEq, member])) accepted
  · rw [leftEq]
    exact append (fun c member => loose c (by simp [othersEq, member])) accepted

theorem cut {first : Char} {rest : List Char} (accepted : Accepted (first :: rest)) :
    (Segment.cut first rest).1.IsElement ∧ Accepted (Segment.cut first rest).2 := by
  obtain ⟨piece, after, whole, element, fits, acceptedAfter⟩ :=
    accepted.exists_first (by simp)
  by_cases extensible : piece.IsExtensible
  · have cutWhole := Segment.text_cut_append first rest
    have longest := Segment.cut_longest first rest
    have sameLead : (Segment.cut first rest).1.lead = piece.lead :=
      Segment.lead_eq_of_append_eq_append fits.wellFormed longest.wellFormed
        (cutWhole.trans whole.symm)
    have cutExtensible : (Segment.cut first rest).1.IsExtensible := by
      refine ⟨by rw [sameLead]; exact extensible.lead, ?_⟩
      intro remark isComment
      rw [isComment] at cutWhole
      exact fits.append_ne_comment extensible.not_comment (whole.trans cutWhole.symm)
    refine ⟨cutExtensible.isElement, ?_⟩
    exact of_extensible fits.wellFormed extensible longest.wellFormed cutExtensible
      (whole.trans cutWhole.symm) acceptedAfter
  · rw [Segment.cut_eq_of_longest (fits.longest element extensible) whole]
    exact ⟨element, acceptedAfter⟩

end Accepted

/-! ## Acceptance -/

theorem accepted_iff_forall_isElement (text : List Char) :
    Accepted text ↔ ∀ piece ∈ segments text, piece.IsElement := by
  induction text using segments_induction with
  | empty => simp [Accepted.nil]
  | step first rest ih =>
      rw [segments_cons, List.forall_mem_cons, ← ih]
      constructor
      · intro accepted
        exact accepted.cut
      · rintro ⟨element, accepted⟩
        have whole := Segment.text_cut_append first rest
        rw [← whole]
        exact Accepted.cons element (Segment.cut_longest first rest).fits accepted

theorem Segment.cause?_eq_none_iff {piece : Segment} :
    piece.cause? = none ↔ piece.IsElement := by
  cases piece <;> simp [cause?, IsElement]

theorem diagnostics_eq_nil_iff_forall_isElement (source : String) (file : Option String) :
    (tokenize source file).diagnostics = [] ↔
      ∀ piece ∈ segments source.toList, piece.IsElement := by
  rw [← List.map_eq_nil_iff, map_cause_diagnostics_tokenize, List.filterMap_eq_nil_iff]
  simp only [Segment.cause?_eq_none_iff]

/-- A scan has no diagnostics exactly if its text is a sequence of elements, in
whatever way it is cut into them. -/
theorem diagnostics_tokenize_eq_nil_iff (source : String) (file : Option String) :
    (tokenize source file).diagnostics = [] ↔ Accepted source.toList := by
  rw [diagnostics_eq_nil_iff_forall_isElement, accepted_iff_forall_isElement]

end LoxScanner
