import LoxScanner.Proofs.WellFormed

/-!
# The longest segment at the start of a text

A well-formed segment that cannot be continued by the text after it is what a cut
takes, and a cut takes nothing else. So a cut is known by what it returns, and no
later proof needs the way in which it looks for it.
-/

namespace LoxScanner

/-! ## Runs of characters -/

section Runs

variable {α : Type} {condition : α → Bool} {items rest : List α}

theorem takeWhile_eq_nil_of_head?
    (stop : ∀ item, rest.head? = some item → condition item = false) :
    rest.takeWhile condition = [] := by
  cases rest with
  | nil => rfl
  | cons item others => exact List.takeWhile_cons_of_neg (by simp [stop item rfl])

theorem dropWhile_eq_self_of_head?
    (stop : ∀ item, rest.head? = some item → condition item = false) :
    rest.dropWhile condition = rest := by
  cases rest with
  | nil => rfl
  | cons item others => exact List.dropWhile_cons_of_neg (by simp [stop item rfl])

theorem takeWhile_append_of_head?
    (inside : ∀ item ∈ items, condition item = true)
    (stop : ∀ item, rest.head? = some item → condition item = false) :
    (items ++ rest).takeWhile condition = items := by
  rw [List.takeWhile_append_of_pos inside, takeWhile_eq_nil_of_head? stop,
    List.append_nil]

theorem dropWhile_append_of_head?
    (inside : ∀ item ∈ items, condition item = true)
    (stop : ∀ item, rest.head? = some item → condition item = false) :
    (items ++ rest).dropWhile condition = rest := by
  rw [List.dropWhile_append_of_pos inside, dropWhile_eq_self_of_head? stop]

theorem eq_false_of_head?_dropWhile {item : α}
    (isHead : (items.dropWhile condition).head? = some item) :
    condition item = false := by
  have failing := List.head?_dropWhile_not condition items
  rw [isHead] at failing
  simpa using failing

theorem eq_of_head?_dropWhile_ne [DecidableEq α] {stop item : α}
    (isHead : (items.dropWhile (· ≠ stop)).head? = some item) : item = stop := by
  have stops := eq_false_of_head?_dropWhile isHead
  simpa using stops

theorem not_mem_takeWhile_ne [DecidableEq α] (stop : α) (items : List α) :
    stop ∉ items.takeWhile (· ≠ stop) := by
  intro member
  have inside := List.mem_takeWhile_imp member
  simp at inside

/-- A run without an item, up to that item or the end, is cut off by it. -/
theorem takeWhile_dropWhile_ne [DecidableEq α] {stop : α} (absent : stop ∉ items)
    (isStop : ∀ item, rest.head? = some item → item = stop) :
    (items ++ rest).takeWhile (· ≠ stop) = items ∧
      (items ++ rest).dropWhile (· ≠ stop) = rest := by
  have inside : ∀ item ∈ items, (decide (item ≠ stop)) = true := by
    intro item member
    have different : item ≠ stop := by
      intro same
      rw [same] at member
      exact absent member
    simpa using different
  have outside : ∀ item, rest.head? = some item → (decide (item ≠ stop)) = false := by
    intro item isHead
    simp [isStop item isHead]
  exact ⟨takeWhile_append_of_head? inside outside,
    dropWhile_append_of_head? inside outside⟩

end Runs

/-! ## Segments that the text after them does not continue -/

/-- Whether a numeral is not continued by a digit, nor, if it has no point yet, by
a point with a digit after it. -/
structure Numeral.EndsBefore (numeral : Numeral) (rest : List Char) : Prop where
  no_digit : ∀ c, rest.head? = some c → c.isDigit = false
  no_point : numeral.fraction = [] →
    ∀ digit more, rest = '.' :: digit :: more → digit.isDigit = false

def Lexeme.EndsBefore : Lexeme → List Char → Prop
  | symbol mark, rest =>
      (mark.withEqual?.isSome = true → rest.head? ≠ some '=') ∧
        (mark = .slash → rest.head? ≠ some '/')
  | word _, rest => ∀ c, rest.head? = some c → isWordChar c = false
  | number numeral, rest => numeral.EndsBefore rest
  | string _, _ => True

namespace Segment

def EndsBefore : Segment → List Char → Prop
  | lexeme found, rest => found.EndsBefore rest
  | space _, _ => True
  | comment _, rest => ∀ c, rest.head? = some c → c = lineFeed
  | stray _, _ => True
  | openString _, rest => rest = []

/-- A well-formed segment that the text after it does not continue. -/
structure Longest (piece : Segment) (rest : List Char) : Prop where
  wellFormed : piece.WellFormed
  ends : piece.EndsBefore rest

end Segment

/-! ## Numerals -/

namespace Numeral

theorem split_of_no_point {text whole rest : List Char}
    (wholeEq : text.takeWhile Char.isDigit = whole)
    (restEq : text.dropWhile Char.isDigit = rest)
    (noPoint : ∀ digit more, rest = '.' :: digit :: more → digit.isDigit = false) :
    split text = (⟨whole, []⟩, rest) := by
  unfold split
  dsimp only
  rw [wholeEq, restEq]
  split
  next digit more => simp [noPoint digit more rfl]
  next => rfl

theorem split_of_point {text whole more : List Char} {digit : Char}
    (wholeEq : text.takeWhile Char.isDigit = whole)
    (restEq : text.dropWhile Char.isDigit = '.' :: digit :: more)
    (isDigit : digit.isDigit = true) :
    split text =
      (⟨whole, (digit :: more).takeWhile Char.isDigit⟩,
        (digit :: more).dropWhile Char.isDigit) := by
  unfold split
  dsimp only
  rw [wholeEq, restEq]
  simp [isDigit]

theorem split_text_append_of_fraction {whole others : List Char} {digit : Char}
    (wellFormed : (Numeral.mk whole (digit :: others)).WellFormed)
    (tail : List Char) :
    split ((Numeral.mk whole (digit :: others)).text ++ tail) =
      (⟨whole, (digit :: others) ++ tail.takeWhile Char.isDigit⟩,
        tail.dropWhile Char.isDigit) := by
  have pointStops : ∀ c, ('.' :: digit :: (others ++ tail)).head? = some c →
      c.isDigit = false := by
    intro c isHead
    cases isHead
    rfl
  have isDigit : digit.isDigit = true := wellFormed.fraction_digits digit (by simp)
  have textEq : (Numeral.mk whole (digit :: others)).text ++ tail =
      whole ++ '.' :: digit :: (others ++ tail) := by
    simp [text]
  have fractionEq : (digit :: (others ++ tail)).takeWhile Char.isDigit =
      (digit :: others) ++ tail.takeWhile Char.isDigit :=
    List.takeWhile_append_of_pos wellFormed.fraction_digits
  have afterEq : (digit :: (others ++ tail)).dropWhile Char.isDigit =
      tail.dropWhile Char.isDigit :=
    List.dropWhile_append_of_pos wellFormed.fraction_digits
  rw [textEq,
    split_of_point (takeWhile_append_of_head? wellFormed.whole_digits pointStops)
      (dropWhile_append_of_head? wellFormed.whole_digits pointStops) isDigit,
    fractionEq, afterEq]

/-- A numeral is read back from its text, if what follows does not continue it. -/
theorem split_text_append_of_endsBefore {numeral : Numeral} {rest : List Char}
    (wellFormed : numeral.WellFormed) (ends : numeral.EndsBefore rest) :
    split (numeral.text ++ rest) = (numeral, rest) := by
  obtain ⟨whole, fraction⟩ := numeral
  cases fraction with
  | nil =>
      exact split_of_no_point
        (takeWhile_append_of_head? wellFormed.whole_digits ends.no_digit)
        (dropWhile_append_of_head? wellFormed.whole_digits ends.no_digit)
        (ends.no_point rfl)
  | cons digit others =>
      have noneTaken : rest.takeWhile Char.isDigit = [] :=
        takeWhile_eq_nil_of_head? ends.no_digit
      have allLeft : rest.dropWhile Char.isDigit = rest :=
        dropWhile_eq_self_of_head? ends.no_digit
      rw [split_text_append_of_fraction wellFormed, noneTaken, allLeft, List.append_nil]

theorem ofText?_text {numeral : Numeral} (wellFormed : numeral.WellFormed) :
    ofText? numeral.text = some numeral := by
  have ends : numeral.EndsBefore [] := ⟨by simp, by simp⟩
  have splits := split_text_append_of_endsBefore wellFormed ends
  rw [List.append_nil] at splits
  rw [ofText?, splits]
  exact if_neg wellFormed.whole_ne_nil

/-- What a split takes from a text that starts with a digit is a numeral, and what
it leaves does not continue it. -/
theorem split_longest {first : Char} (isDigit : first.isDigit = true)
    (rest : List Char) :
    (split (first :: rest)).1.WellFormed ∧
      (split (first :: rest)).1.EndsBefore (split (first :: rest)).2 := by
  have wholeDigits : ∀ c ∈ (first :: rest).takeWhile Char.isDigit,
      c.isDigit = true := fun c member => List.mem_takeWhile_imp member
  have wholeNeNil : (first :: rest).takeWhile Char.isDigit ≠ [] := by
    simp [isDigit]
  by_cases point : ∃ digit more,
      (first :: rest).dropWhile Char.isDigit = '.' :: digit :: more ∧
        digit.isDigit = true
  · obtain ⟨digit, more, restEq, fractionDigit⟩ := point
    rw [split_of_point rfl restEq fractionDigit]
    refine ⟨⟨wholeNeNil, wholeDigits, fun c member => List.mem_takeWhile_imp member⟩,
      ⟨fun c isHead => eq_false_of_head?_dropWhile isHead, ?_⟩⟩
    intro noFraction
    simp [fractionDigit] at noFraction
  · have noPoint : ∀ digit more,
        (first :: rest).dropWhile Char.isDigit = '.' :: digit :: more →
          digit.isDigit = false := by
      intro digit more restEq
      rw [← Bool.not_eq_true]
      intro fractionDigit
      exact point ⟨digit, more, restEq, fractionDigit⟩
    rw [split_of_no_point rfl rfl noPoint]
    exact ⟨⟨wholeNeNil, wholeDigits, by simp⟩,
      ⟨fun c isHead => eq_false_of_head?_dropWhile isHead, fun _ => noPoint⟩⟩

end Numeral

/-! ## Symbols -/

namespace Symbol

theorem withEqual?_of_withEqual? {symbol longer : Symbol}
    (extended : symbol.withEqual? = some longer) :
    longer.withEqual? = none ∧ longer ≠ slash := by
  cases symbol <;> cases extended <;> exact ⟨rfl, by decide⟩

/-- A symbol is of one character, or the longer form of such a symbol. -/
theorem single_or_longer (symbol : Symbol) :
    (symbol.single = symbol ∧ ∃ c, symbol.spelling = [c]) ∨
      (symbol.single.withEqual? = some symbol ∧
        ∃ c, symbol.spelling = [c, '=']) := by
  cases symbol
  case bangEqual | equalEqual | greaterEqual | lessEqual =>
    exact Or.inr ⟨rfl, _, rfl⟩
  all_goals exact Or.inl ⟨rfl, _, rfl⟩

end Symbol

namespace Lexeme

theorem splitSymbol_of_head? {mark : Symbol} {rest : List Char}
    (noEqual : mark.withEqual?.isSome = true → rest.head? ≠ some '=') :
    splitSymbol mark rest = (mark, rest) := by
  unfold splitSymbol
  split
  next longer others extended =>
    rw [extended] at noEqual
    exact absurd rfl (noEqual rfl)
  next => rfl

theorem splitSymbol_of_withEqual? {mark longer : Symbol}
    (extended : mark.withEqual? = some longer) (others : List Char) :
    splitSymbol mark ('=' :: others) = (longer, others) := by
  simp [splitSymbol, extended]

end Lexeme

namespace Segment

theorem cutSymbol_of_head? {mark : Symbol} {rest : List Char}
    (noComment : mark = .slash → rest.head? ≠ some '/') :
    cutSymbol mark rest =
      (.lexeme (.symbol (Lexeme.splitSymbol mark rest).1),
        (Lexeme.splitSymbol mark rest).2) := by
  unfold cutSymbol
  split
  next others => exact absurd rfl (noComment rfl)
  next => rfl

private theorem cutSymbol_longest (mark : Symbol) (rest : List Char) :
    (cutSymbol mark rest).1.Longest (cutSymbol mark rest).2 := by
  by_cases comment : ∃ others, mark = .slash ∧ rest = '/' :: others
  · obtain ⟨others, rfl, rfl⟩ := comment
    refine ⟨?_, ?_⟩
    · exact not_mem_takeWhile_ne lineFeed others
    · exact fun c isHead => eq_of_head?_dropWhile_ne isHead
  · have noComment : mark = .slash → rest.head? ≠ some '/' := by
      intro isSlash isHead
      obtain ⟨others, restEq⟩ := List.head?_eq_some_iff.1 isHead
      exact comment ⟨others, isSlash, restEq⟩
    rw [cutSymbol_of_head? noComment]
    refine ⟨trivial, ?_⟩
    by_cases equal : mark.withEqual?.isSome = true ∧ rest.head? = some '='
    · obtain ⟨longer, extended⟩ := Option.isSome_iff_exists.1 equal.1
      obtain ⟨others, rfl⟩ := List.head?_eq_some_iff.1 equal.2
      obtain ⟨noMore, notSlash⟩ := Symbol.withEqual?_of_withEqual? extended
      rw [Lexeme.splitSymbol_of_withEqual? extended]
      exact ⟨by simp [noMore], fun isSlash => absurd isSlash notSlash⟩
    · have noEqual : mark.withEqual?.isSome = true → rest.head? ≠ some '=' :=
        fun extensible isHead => equal ⟨extensible, isHead⟩
      rw [Lexeme.splitSymbol_of_head? noEqual]
      exact ⟨noEqual, noComment⟩

private theorem cutSymbol_of_longest {mark : Symbol} {after rest : List Char}
    {first : Char} (ends : (Lexeme.symbol mark).EndsBefore after)
    (whole : mark.spelling ++ after = first :: rest) :
    cutSymbol mark.single rest = (.lexeme (.symbol mark), after) := by
  rcases mark.single_or_longer with ⟨single, c, spelling⟩ | ⟨extended, c, spelling⟩
  · simp only [spelling, List.cons_append, List.nil_append, List.cons.injEq] at whole
    obtain ⟨-, rfl⟩ := whole
    rw [single, cutSymbol_of_head? ends.2, Lexeme.splitSymbol_of_head? ends.1]
  · simp only [spelling, List.cons_append, List.nil_append, List.cons.injEq] at whole
    obtain ⟨-, rfl⟩ := whole
    have noComment : mark.single = .slash →
        ('=' :: after).head? ≠ some '/' := fun _ => by simp
    rw [cutSymbol_of_head? noComment,
      Lexeme.splitSymbol_of_withEqual? extended]

/-! ## Strings -/

private theorem cutString_longest (text : List Char) :
    (cutString text).1.Longest (cutString text).2 := by
  have noQuote := not_mem_takeWhile_ne quote text
  unfold cutString
  dsimp only
  split
  · exact ⟨noQuote, rfl⟩
  · exact ⟨noQuote, trivial⟩

private theorem cutString_append {contents : List Char} (noQuote : quote ∉ contents)
    (after : List Char) :
    cutString (contents ++ quote :: after) = (.lexeme (.string contents), after) := by
  have closes : ∀ c, (quote :: after).head? = some c → c = quote := by
    intro c isHead
    cases isHead
    rfl
  obtain ⟨taken, left⟩ := takeWhile_dropWhile_ne noQuote closes
  rw [cutString, taken, left]

private theorem cutString_of_not_mem {contents : List Char}
    (noQuote : quote ∉ contents) :
    cutString contents = (.openString contents, []) := by
  have ended : ∀ c, ([] : List Char).head? = some c → c = quote := by simp
  obtain ⟨taken, left⟩ := takeWhile_dropWhile_ne noQuote ended
  rw [List.append_nil] at taken left
  rw [cutString, taken, left]

/-! ## Comments -/

private theorem cutSymbol_comment {remark after : List Char}
    (oneLine : lineFeed ∉ remark) (ends : ∀ c, after.head? = some c → c = lineFeed) :
    cutSymbol .slash ('/' :: (remark ++ after)) = (.comment remark, after) := by
  obtain ⟨taken, left⟩ := takeWhile_dropWhile_ne oneLine ends
  rw [cutSymbol, taken, left]

/-! ## Cuts -/

/-- A cut takes a well-formed segment that the rest of the text does not
continue. -/
theorem cut_longest (first : Char) (rest : List Char) :
    (cut first rest).1.Longest (cut first rest).2 := by
  rw [cut_eq]
  cases lead : Lead.of first with
  | blank =>
      exact ⟨isWhitespace_iff.1 (Lead.of_eq_blank_iff.1 lead), trivial⟩
  | quotation => exact cutString_longest rest
  | digit =>
      obtain ⟨wellFormed, ends⟩ :=
        Numeral.split_longest (Lead.of_eq_digit_iff.1 lead) rest
      exact ⟨wellFormed, ends⟩
  | letter =>
      refine ⟨⟨first, _, rfl, Lead.of_eq_letter_iff.1 lead, ?_⟩, ?_⟩
      · exact fun c member => List.mem_takeWhile_imp member
      · exact fun c isHead => eq_false_of_head?_dropWhile isHead
  | mark symbol => exact cutSymbol_longest symbol rest
  | nothing => exact ⟨of_eq_nothing_iff_wellFormed.1 lead, trivial⟩

/-- No other segment is well formed and not continued by the text after it: such a
segment at the start of a text is the one that a cut takes. -/
theorem cut_eq_of_longest {piece : Segment} {after rest : List Char} {first : Char}
    (longest : piece.Longest after) (whole : piece.text ++ after = first :: rest) :
    cut first rest = (piece, after) := by
  obtain ⟨wellFormed, ends⟩ := longest
  rw [cut_eq, lead_eq_of_append_eq_cons wellFormed whole]
  cases piece with
  | lexeme found =>
      cases found with
      | symbol mark => exact cutSymbol_of_longest ends whole
      | word letters =>
          obtain ⟨start, others, rfl, _, inWord⟩ := wellFormed
          cases whole
          dsimp only [lead]
          rw [List.append_eq, takeWhile_append_of_head? inWord ends,
            dropWhile_append_of_head? inWord ends]
      | number numeral =>
          dsimp only [lead]
          rw [← whole]
          have splits := Numeral.split_text_append_of_endsBefore wellFormed ends
          dsimp only [text, Lexeme.text]
          rw [splits]
      | string contents =>
          have restEq : rest = contents ++ quote :: after := by
            simpa [text, Lexeme.text] using (List.cons.inj whole).2.symm
          rw [restEq]
          exact cutString_append wellFormed after
  | space character =>
      cases whole
      rfl
  | comment remark =>
      cases whole
      exact cutSymbol_comment wellFormed ends
  | stray character =>
      cases whole
      rfl
  | openString contents =>
      have afterEq : after = [] := ends
      have restEq : rest = contents := by
        simpa [text, afterEq] using (List.cons.inj whole).2.symm
      rw [afterEq, restEq]
      exact cutString_of_not_mem wellFormed

end Segment

end LoxScanner
