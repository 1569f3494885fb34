import LoxScanner.Console.Prompt

/-!
# The lines of an input

A prompt reads lines of bytes. In the bytes of a text a line feed's byte stands for a
line feed and nothing else, and so does a carriage return's, so the lines of the bytes
are the bytes of the text's lines.
-/

namespace LoxScanner

/-! ## Lines of a list -/

section Lines

variable {α : Type} [DecidableEq α] {feed mark : α} {line rest : List α}

/-- A list is a line, or a line with more lines after it. -/
theorem lines_induction (feed : α) {motive : List α → Prop}
    (last : ∀ line, feed ∉ line → motive line)
    (step : ∀ line rest, feed ∉ line → motive rest → motive (line ++ feed :: rest))
    (items : List α) : motive items := by
  -- The line under way grows until a `feed` ends it, so it is kept apart.
  have extended : ∀ line, feed ∉ line → motive (line ++ items) := by
    induction items with
    | nil =>
        intro line absent
        rw [List.append_nil]
        exact last line absent
    | cons item items ih =>
        intro line absent
        by_cases isFeed : item = feed
        · rw [isFeed]
          exact step line items absent (ih [] List.not_mem_nil)
        · have absentLonger : feed ∉ line ++ [item] := by
            simp [absent, Ne.symm isFeed]
          rw [List.append_cons]
          exact ih (line ++ [item]) absentLonger
  exact extended [] List.not_mem_nil

theorem linesOf_of_not_mem (absent : feed ∉ line) :
    linesOf feed mark line = if line = [] then [] else [line] := by
  rw [linesOf, List.splitOn_eq_singleton absent]
  rfl

theorem linesOf_append_cons (absent : feed ∉ line) :
    linesOf feed mark (line ++ feed :: rest) =
      dropAtEnd mark line :: linesOf feed mark rest := by
  have notEmpty : rest.splitOn feed ≠ [] := List.splitOn_ne_nil feed rest
  obtain ⟨ended, final, restEq⟩ : ∃ ended final, rest.splitOn feed = ended ++ [final] :=
    ⟨_, _, (List.dropLast_concat_getLast notEmpty).symm⟩
  rw [linesOf, List.splitOn_append_cons_self_of_not_mem absent, linesOf, restEq,
    ← List.cons_append]
  simp only [List.dropLast_concat, List.getLast?_concat, List.map_cons]
  by_cases isEmpty : final = []
  · rw [if_pos isEmpty, if_pos isEmpty]
  · rw [if_neg isEmpty, if_neg isEmpty, List.cons_append]

/-- A line is cut off at `feed` as it stands, or with a `mark` at its end. -/
theorem exists_piece_of_getElem?_linesOf {items : List α} {index : Nat}
    (isLine : (linesOf feed mark items)[index]? = some line) :
    ∃ piece, (items.splitOn feed)[index]? = some piece ∧ feed ∉ piece ∧
      index ≤ items.count feed ∧ (line = piece ∨ line = dropAtEnd mark piece) := by
  induction items using lines_induction feed generalizing index with
  | last piece absent =>
      rw [linesOf_of_not_mem absent] at isLine
      rw [List.splitOn_eq_singleton absent]
      by_cases isEmpty : piece = []
      · rw [if_pos isEmpty] at isLine
        cases isLine
      · rw [if_neg isEmpty] at isLine
        cases index with
        | zero =>
            have same : piece = line := Option.some.inj isLine
            exact ⟨piece, rfl, absent, Nat.zero_le _, Or.inl same.symm⟩
        | succ index => cases isLine
  | step piece rest absent ih =>
      rw [linesOf_append_cons absent] at isLine
      rw [List.splitOn_append_cons_self_of_not_mem absent]
      cases index with
      | zero =>
          have same : dropAtEnd mark piece = line := Option.some.inj isLine
          exact ⟨piece, rfl, absent, Nat.zero_le _, Or.inr same.symm⟩
      | succ index =>
          rw [List.getElem?_cons_succ] at isLine
          obtain ⟨later, isPiece, laterAbsent, indexLe, lineEq⟩ := ih isLine
          refine ⟨later, ?_, laterAbsent, ?_, lineEq⟩
          · rw [List.getElem?_cons_succ]
            exact isPiece
          · rw [List.count_append, List.count_cons_self]
            omega

theorem dropAtEnd_append_singleton (mark : α) (items : List α) :
    dropAtEnd mark (items ++ [mark]) = items := by
  rw [dropAtEnd, List.getLast?_concat, if_pos rfl, List.dropLast_concat]

theorem dropAtEnd_of_getLast? (other : line.getLast? ≠ some mark) :
    dropAtEnd mark line = line :=
  if_neg other

/-- A list ends in a mark, which is left out, or stays as it is. -/
theorem dropAtEnd_cases (mark : α) (items : List α) :
    items = dropAtEnd mark items ++ [mark] ∨ dropAtEnd mark items = items := by
  by_cases marked : items.getLast? = some mark
  · obtain ⟨others, rfl⟩ := List.getLast?_eq_some_iff.1 marked
    rw [dropAtEnd_append_singleton]
    exact Or.inl rfl
  · exact Or.inr (dropAtEnd_of_getLast? marked)

theorem mem_of_mem_dropAtEnd {item : α} (member : item ∈ dropAtEnd mark line) :
    item ∈ line := by
  rcases dropAtEnd_cases mark line with ends | same
  · rw [ends]
    exact List.mem_append_left _ member
  · rw [same] at member
    exact member

/-- Every list is cut at each `feed`, with what comes after the last one as its rest. -/
theorem exists_linesOf_eq (feed mark : α) (items : List α) :
    ∃ (ended : List (List α)) (rest : List α),
      items = (ended.flatMap fun line => line ++ [feed]) ++ rest ∧
      (∀ line ∈ ended, feed ∉ line) ∧ feed ∉ rest ∧
      linesOf feed mark items =
        ended.map (dropAtEnd mark) ++ if rest = [] then [] else [rest] := by
  induction items using lines_induction feed with
  | last line absent =>
      refine ⟨[], line, rfl, by simp, absent, ?_⟩
      rw [linesOf_of_not_mem absent]
      rfl
  | step line others absent ih =>
      obtain ⟨ended, rest, othersEq, endedAbsent, restAbsent, linesEq⟩ := ih
      refine ⟨line :: ended, rest, ?_, List.forall_mem_cons.2 ⟨absent, endedAbsent⟩,
        restAbsent, ?_⟩
      · simp [othersEq]
      · rw [linesOf_append_cons absent, linesEq, List.map_cons, List.cons_append]

theorem linesOf_append_feed (front rest : List α) :
    linesOf feed mark (front ++ feed :: rest) =
      linesOf feed mark (front ++ [feed]) ++ linesOf feed mark rest := by
  have noLines : linesOf feed mark ([] : List α) = [] := rfl
  induction front using lines_induction feed with
  | last line absent =>
      rw [linesOf_append_cons absent, linesOf_append_cons absent, noLines]
      rfl
  | step line others absent ih =>
      rw [List.append_assoc, List.append_assoc, List.cons_append, List.cons_append,
        linesOf_append_cons absent, linesOf_append_cons absent, ih, List.cons_append]

theorem not_mem_of_mem_linesOf {items : List α} (member : line ∈ linesOf feed mark items) :
    feed ∉ line := by
  obtain ⟨index, isLine⟩ := List.mem_iff_getElem?.1 member
  obtain ⟨piece, _, absent, _, rfl | rfl⟩ := exists_piece_of_getElem?_linesOf isLine
  · exact absent
  · exact fun inLine => absent (mem_of_mem_dropAtEnd inLine)

end Lines

/-! ## The bytes of a text -/

def encode (text : List Char) : List UInt8 :=
  text.flatMap String.utf8EncodeChar

theorem toByteArray_encode (text : List Char) :
    (encode text).toByteArray = (String.ofList text).toByteArray := by
  rw [String.toByteArray_ofList]
  rfl

theorem decodeText_encode (text : List Char) :
    decodeText (encode text) = .ok (String.ofList text) := by
  have valid : (String.ofList text).toByteArray.IsValidUTF8 :=
    (String.ofList text).isValidUTF8
  rw [decodeText, toByteArray_encode, String.fromUTF8?, dif_pos valid]
  rfl

theorem decodeText_encode_toList (text : String) :
    decodeText (encode text.toList) = .ok text := by
  rw [decodeText_encode, String.ofList_toList]

/-- The only bytes that decode as a text are its own. -/
theorem eq_encode_of_decodeText {bytes : List UInt8} {source : String}
    (decoded : decodeText bytes = .ok source) : bytes = encode source.toList := by
  unfold decodeText String.fromUTF8? at decoded
  by_cases valid : bytes.toByteArray.IsValidUTF8
  · rw [dif_pos valid] at decoded
    have sourceEq : String.fromUTF8 bytes.toByteArray valid = source :=
      Except.ok.inj decoded
    have sameBytes : bytes.toByteArray = (encode source.toList).toByteArray := by
      rw [toByteArray_encode, String.ofList_toList, ← sourceEq]
      rfl
    rw [← List.toList_data_toByteArray (l := bytes), sameBytes,
      List.toList_data_toByteArray]
  · rw [dif_neg valid] at decoded
    cases decoded

/-- Whether bytes are those of a text. -/
def IsText (bytes : List UInt8) : Prop :=
  ∃ text : String, bytes = encode text.toList

theorem decodeText_eq_error {bytes : List UInt8} (notText : ¬ IsText bytes) :
    decodeText bytes = .error .notUtf8 := by
  cases decoded : decodeText bytes with
  | ok text => exact absurd ⟨text, eq_encode_of_decodeText decoded⟩ notText
  | error failure =>
      unfold decodeText at decoded
      split at decoded
      · cases decoded
      · exact decoded.symm

theorem isText_iff_isOk {bytes : List UInt8} :
    IsText bytes ↔ (decodeText bytes).isOk = true := by
  constructor
  · rintro ⟨text, rfl⟩
    rw [decodeText_encode_toList]
    rfl
  · intro isOk
    cases decoded : decodeText bytes with
    | ok text => exact ⟨text, eq_encode_of_decodeText decoded⟩
    | error failure =>
        rw [decoded] at isOk
        cases isOk

instance : DecidablePred IsText :=
  fun _ => decidable_of_iff _ isText_iff_isOk.symm

theorem encode_toList_injective :
    Function.Injective fun text : String => encode text.toList := by
  intro text other same
  have decoded : decodeText (encode text.toList) = decodeText (encode other.toList) :=
    congrArg decodeText same
  rw [decodeText_encode_toList, decodeText_encode_toList] at decoded
  exact Except.ok.inj decoded

theorem exists_texts_of_isText {lines : List (List UInt8)}
    (areTexts : ∀ line ∈ lines, IsText line) :
    ∃ texts : List String, lines = texts.map fun text => encode text.toList := by
  induction lines with
  | nil => exact ⟨[], rfl⟩
  | cons line lines ih =>
      rw [List.forall_mem_cons] at areTexts
      obtain ⟨⟨text, lineEq⟩, othersAreTexts⟩ := areTexts
      obtain ⟨texts, linesEq⟩ := ih othersAreTexts
      exact ⟨text :: texts, by rw [List.map_cons, ← lineEq, ← linesEq]⟩

private theorem le_toNat_of_mem_utf8EncodeChar {c : Char} {byte : UInt8}
    (wide : 127 < c.toNat) (member : byte ∈ String.utf8EncodeChar c) :
    128 ≤ byte.toNat := by
  have notSingle : ¬ c.val.toNat ≤ 127 := Nat.not_le.2 wide
  unfold String.utf8EncodeChar at member
  dsimp only at member
  rw [if_neg notSingle] at member
  by_cases two : c.val.toNat ≤ 2047
  · rw [if_pos two] at member
    simp only [List.mem_cons, List.not_mem_nil, or_false] at member
    rcases member with rfl | rfl <;> rw [UInt8.toNat_ofNat'] <;> omega
  · rw [if_neg two] at member
    by_cases three : c.val.toNat ≤ 65535
    · rw [if_pos three] at member
      simp only [List.mem_cons, List.not_mem_nil, or_false] at member
      rcases member with rfl | rfl | rfl <;> rw [UInt8.toNat_ofNat'] <;> omega
    · rw [if_neg three] at member
      simp only [List.mem_cons, List.not_mem_nil, or_false] at member
      rcases member with rfl | rfl | rfl | rfl <;> rw [UInt8.toNat_ofNat'] <;> omega

/-- A byte of ASCII stands for its own character only. -/
theorem utf8EncodeChar_of_mem {c : Char} {byte : UInt8} (isAscii : byte.toNat < 128)
    (member : byte ∈ String.utf8EncodeChar c) :
    c.toNat = byte.toNat ∧ String.utf8EncodeChar c = [byte] := by
  have narrow : c.toNat ≤ 127 := by
    apply Nat.not_lt.1
    intro wide
    have above := le_toNat_of_mem_utf8EncodeChar wide member
    omega
  have single : String.utf8EncodeChar c = [UInt8.ofNat c.toNat] := if_pos narrow
  rw [single, List.mem_singleton] at member
  refine ⟨?_, by rw [single, member]⟩
  rw [member, UInt8.toNat_ofNat']
  omega

/-! ## The lines of the bytes of a text -/

section Encoding

variable {line : List Char} {c : Char} {byte : UInt8}

theorem mem_of_mem_encode (isAscii : byte.toNat < 128) (sameCode : c.toNat = byte.toNat)
    (member : byte ∈ encode line) : c ∈ line := by
  obtain ⟨other, otherMember, byteMember⟩ := List.mem_flatMap.1 member
  obtain ⟨otherCode, -⟩ := utf8EncodeChar_of_mem isAscii byteMember
  have same : other = c := Char.toNat_inj.1 (otherCode.trans sameCode.symm)
  rw [← same]
  exact otherMember

theorem encode_append (left right : List Char) :
    encode (left ++ right) = encode left ++ encode right :=
  List.flatMap_append

theorem encode_eq_nil : encode line = [] ↔ line = [] := by
  cases line with
  | nil => exact iff_of_true rfl rfl
  | cons c others => simp [encode]

theorem encode_lineFeed_cons (line : List Char) :
    encode (lineFeed :: line) = Prompt.lineFeedByte :: encode line := by
  rw [encode, List.flatMap_cons]
  rfl

theorem lineFeedByte_not_mem_encode (absent : lineFeed ∉ line) :
    Prompt.lineFeedByte ∉ encode line :=
  fun member => absent (mem_of_mem_encode (by decide) rfl member)

theorem lineFeedByte_mem_encode {text : List Char} (member : lineFeed ∈ text) :
    Prompt.lineFeedByte ∈ encode text :=
  List.mem_flatMap.2 ⟨lineFeed, member, by decide⟩

theorem dropAtEnd_encode (line : List Char) :
    dropAtEnd Prompt.carriageReturnByte (encode line) = encode (dropReturn line) := by
  by_cases marked : line.getLast? = some carriageReturn
  · obtain ⟨others, rfl⟩ := List.getLast?_eq_some_iff.1 marked
    have single : encode [carriageReturn] = [Prompt.carriageReturnByte] := rfl
    rw [encode_append, single, dropAtEnd_append_singleton, dropReturn,
      dropAtEnd_append_singleton]
  · have bytesUnmarked : (encode line).getLast? ≠ some Prompt.carriageReturnByte := by
      intro isByte
      obtain rfl | ⟨others, c, rfl⟩ := List.eq_nil_or_concat line
      · cases isByte
      · have notEmpty : encode [c] ≠ [] := mt encode_eq_nil.1 (List.cons_ne_nil c [])
        rw [List.concat_eq_append, encode_append, List.getLast?_append,
          List.getLast?_eq_some_getLast notEmpty, Option.some_or] at isByte
        have member := List.getLast_mem notEmpty
        rw [Option.some.inj isByte] at member
        have isReturn : carriageReturn ∈ [c] := mem_of_mem_encode (by decide) rfl member
        rw [List.concat_eq_append, List.getLast?_concat, List.mem_singleton.1 isReturn]
          at marked
        exact marked rfl
    rw [dropAtEnd_of_getLast? bytesUnmarked, dropReturn, dropAtEnd_of_getLast? marked]

theorem lines_encode (text : List Char) :
    Prompt.lines (encode text) =
      (linesOf lineFeed carriageReturn text).map encode := by
  unfold Prompt.lines
  induction text using lines_induction lineFeed with
  | last line absent =>
      rw [linesOf_of_not_mem absent,
        linesOf_of_not_mem (lineFeedByte_not_mem_encode absent)]
      by_cases isEmpty : line = []
      · rw [if_pos isEmpty, if_pos (encode_eq_nil.2 isEmpty), List.map_nil]
      · rw [if_neg isEmpty, if_neg (mt encode_eq_nil.1 isEmpty)]
        rfl
  | step line rest absent ih =>
      rw [encode_append, encode_lineFeed_cons, linesOf_append_cons absent,
        linesOf_append_cons (lineFeedByte_not_mem_encode absent), ih, List.map_cons,
        dropAtEnd_encode]
      rfl

end Encoding

end LoxScanner
