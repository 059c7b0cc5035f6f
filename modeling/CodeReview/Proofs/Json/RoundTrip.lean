import CodeReview.Json.Reader
import CodeReview.Proofs.Json.Numeral

/-!
# Reading back what was written

The compact form of a value is read as that value (`parse?_write`), for every value whose numbers
are numerals and whose strings have texts.

The two halves of the reader are followed one after the other.  `Value.tokens` are the tokens that a
value is made of.

* **Characters to tokens.**  `Lexes` says that some characters are cut into some tokens, whatever
  tokens were found before.  What comes after them matters only for numbers and words, which no
  sign of their own ends: there it has to begin with a character that cannot continue them.
* **Tokens to values.**  `Reads` says that some tokens take the stack machine from one state to
  another.  A value takes it from wherever a value may come to the place behind that value.

Both are closed under putting one after the other, so that the proofs for values follow the
definitions of the characters and of the tokens case by case.
-/

namespace CodeReview.Json

open CodeReview.Text

/-! ### The values that can be read back and their tokens -/

mutual

/-- Every number is a numeral, and every string and every key has a text. -/
def Value.isSound : Value → Bool
  | .null => true
  | .bool _ => true
  | .number t => isNumber t.toList
  | .string t => t.isSome
  | .array items => Value.itemsSound items
  | .object members => Value.membersSound members

/-- The same of all items. -/
def Value.itemsSound : List Value → Bool
  | [] => true
  | v :: rest => v.isSound && Value.itemsSound rest

/-- The same of all members. -/
def Value.membersSound : List (Option String × Value) → Bool
  | [] => true
  | (k, v) :: rest => k.isSome && v.isSound && Value.membersSound rest

end

mutual

/-- The tokens of a value. -/
def Value.tokens : Value → List Token
  | .null => [.simple .null]
  | .bool b => [.simple (.bool b)]
  | .number t => [.simple (.number t)]
  | .string t => [.simple (.string t)]
  | .array items => .openArray :: Value.itemTokens items ++ [.closeArray]
  | .object members => .openObject :: Value.memberTokens members ++ [.closeObject]

/-- The tokens of values with commas between. -/
def Value.itemTokens : List Value → List Token
  | [] => []
  | [v] => v.tokens
  | v :: w :: rest => v.tokens ++ .comma :: Value.itemTokens (w :: rest)

/-- The tokens of keys and values with commas between. -/
def Value.memberTokens : List (Option String × Value) → List Token
  | [] => []
  | [(k, v)] => .simple (.string k) :: .colon :: v.tokens
  | (k, v) :: m :: rest =>
    .simple (.string k) :: .colon :: v.tokens ++ .comma :: Value.memberTokens (m :: rest)

end

/-! ### From characters to tokens -/

/-- These characters are cut into these tokens where `rest` comes after them. -/
def Lexes (cs : List Char) (ts : List Token) (rest : List Char) : Prop :=
  ∀ done, tokensFrom .outside done (cs ++ rest) = tokensFrom .outside (ts.reverse ++ done) rest

/-- What comes next continues neither a number nor a word. -/
def Closes (rest : List Char) : Prop :=
  ∀ c ∈ rest.head?, inNumber c = false ∧ c.isLower = false

variable {cs cs' rest : List Char} {ts ts' : List Token} {done : List Token}

/-- What is cut into tokens on its own is cut so within a longer text. -/
lemma Lexes.append (h : Lexes cs ts (cs' ++ rest)) (h' : Lexes cs' ts' rest) :
    Lexes (cs ++ cs') (ts ++ ts') rest := by
  intro done
  rw [List.append_assoc, h, h', List.reverse_append, List.append_assoc]

/-- A sign that stands for itself, with what comes after it. -/
lemma Lexes.cons {c : Char} {t : Token} (hc : outside? c = some ([t], .outside))
    (h : Lexes cs ts rest) : Lexes (c :: cs) (t :: ts) rest := by
  have hsign : Lexes [c] [t] (cs ++ rest) := by
    intro done
    rw [List.singleton_append, tokensFrom, Lexing.read?, hc]
  exact hsign.append h

/-- No characters make no tokens. -/
lemma lexes_nil : Lexes [] [] rest := fun _ => rfl

/-- At the end nothing is continued. -/
lemma closes_nil : Closes [] := by simp [Closes]

/-- A character of another kind continues neither a number nor a word. -/
lemma closes_cons {c : Char} (h : inNumber c = false ∧ c.isLower = false) : Closes (c :: rest) := by
  simpa [Closes] using h

/-- Where a number or a word is complete, it is the next token. -/
lemma tokensFrom_of_complete {state : Lexing} {t : Token} (hfinish : state.finish? = some [t])
    (hread : ∀ c ∈ rest.head?, state.read? c = andThen? (some t) c) :
    tokensFrom state done rest = tokensFrom .outside (t :: done) rest := by
  cases rest with
  | nil =>
      rw [tokensFrom, hfinish]
      rfl
  | cons c rest =>
      have hc := hread c rfl
      rw [tokensFrom, hc, tokensFrom, Lexing.read?]
      cases hout : outside? c with
      | none => simp [andThen?, hout]
      | some next =>
          obtain ⟨ts, state⟩ := next
          simp [andThen?, hout]

/-! #### Words -/

/-- A word is cut off where nothing continues it. -/
lemma tokensFrom_word {word : List Char} {t : Token} (hword : wordToken? word = some t)
    (hrest : Closes rest) :
    tokensFrom (.word word) done rest = tokensFrom .outside (t :: done) rest := by
  refine tokensFrom_of_complete (by rw [Lexing.finish?, hword]; rfl) fun c hc => ?_
  rw [Lexing.read?, (hrest c hc).2, hword]
  rfl

/-- The word for null is one token. -/
lemma lexes_null (hrest : Closes rest) : Lexes "null".toList [.simple .null] rest := by
  have hword : wordToken? ['l', 'l', 'u', 'n'] = some (.simple .null) := rfl
  exact fun _ => tokensFrom_word hword hrest

/-- The word for true is one token. -/
lemma lexes_true (hrest : Closes rest) : Lexes "true".toList [.simple (.bool true)] rest := by
  have hword : wordToken? ['e', 'u', 'r', 't'] = some (.simple (.bool true)) := rfl
  exact fun _ => tokensFrom_word hword hrest

/-- The word for false is one token. -/
lemma lexes_false (hrest : Closes rest) : Lexes "false".toList [.simple (.bool false)] rest := by
  have hword : wordToken? ['e', 's', 'l', 'a', 'f'] = some (.simple (.bool false)) := rfl
  exact fun _ => tokensFrom_word hword hrest

/-! #### Numbers -/

/-- Characters of numbers are added to the number under way. -/
lemma tokensFrom_number_append {number : List Char} (h : ∀ c ∈ cs, inNumber c = true) :
    tokensFrom (.number number) done (cs ++ rest) =
      tokensFrom (.number (cs.reverse ++ number)) done rest := by
  induction cs generalizing number with
  | nil => rfl
  | cons c cs ih =>
      obtain ⟨hc, hcs⟩ := List.forall_mem_cons.mp h
      rw [List.cons_append, tokensFrom, Lexing.read?, if_pos hc]
      dsimp only
      rw [List.reverse_nil, List.nil_append, ih hcs, List.reverse_cons, List.append_assoc,
        List.singleton_append]

/-- The first character of a numeral begins a number. -/
lemma outside?_of_isNumber {c : Char} (h : (c == '-' || c.isDigit) = true) :
    outside? c = some ([], .number [c]) := by
  have hne : ∀ d : Char, (d == '-' || d.isDigit) = false → (c == d) = false := by
    intro d hd
    rw [beq_eq_false_iff_ne]
    rintro rfl
    rw [h] at hd
    cases hd
  simp [outside?, hne ' ' rfl, hne '\n' rfl, hne '\t' rfl, hne '\r' rfl, hne '[' rfl, hne ']' rfl,
    hne '\x7b' rfl, hne '\x7d' rfl, hne ':' rfl, hne ',' rfl, hne '"' rfl, h]

/-- A number is one token where nothing continues it. -/
lemma lexes_number {s : List Char} (h : isNumber s = true) (hrest : Closes rest) :
    Lexes s [.simple (.number (String.ofList s))] rest := by
  intro done
  obtain ⟨c, tail, rfl, hc, htail⟩ := isNumber_cases h
  have htoken : numberToken? (tail.reverse ++ [c]) =
      some (.simple (.number (String.ofList (c :: tail)))) := by
    have hreverse : (tail.reverse ++ [c]).reverse = c :: tail := by simp
    rw [numberToken?, hreverse, if_pos h]
  rw [List.cons_append, tokensFrom, Lexing.read?, outside?_of_isNumber hc]
  dsimp only
  rw [List.reverse_nil, List.nil_append, tokensFrom_number_append htail]
  refine tokensFrom_of_complete (by rw [Lexing.finish?, htoken]; rfl) fun d hd => ?_
  rw [Lexing.read?, (hrest d hd).1, htoken]
  rfl

/-! #### Strings -/

/-- Hexadecimal digits are read back. -/
lemma hexValue?_lowerHex {n : ℕ} (h : n < 16) : hexValue? (lowerHex n) = some n := by
  have hall : ∀ n < 16, hexValue? (lowerHex n) = some n := by decide
  exact hall n h

/-- An escaped control character is the character itself. -/
lemma pushUnit_of_lt {s : Spelled} {n : ℕ} (h : n < 0x20) : s.pushUnit n = s.push (Char.ofNat n) := by
  have hhigh : (decide (0xD800 ≤ n) && decide (n ≤ 0xDBFF)) = false := by
    rw [decide_eq_false (by omega), Bool.false_and]
  have hlow : (decide (0xDC00 ≤ n) && decide (n ≤ 0xDFFF)) = false := by
    rw [decide_eq_false (by omega), Bool.false_and]
  simp only [Spelled.pushUnit, hhigh, hlow, Bool.false_eq_true, if_false]

/-- A control character is read back from its four digits. -/
lemma tokensFrom_unit {s : Spelled} {c : Char} (h : c.toNat < 0x20) :
    tokensFrom (.escape s) done
        ('u' :: '0' :: '0' :: lowerHex (c.toNat / 16) :: lowerHex (c.toNat % 16) :: rest) =
      tokensFrom (.string (s.push c)) done rest := by
  have hhigh := hexValue?_lowerHex (n := c.toNat / 16) (by omega)
  have hlow := hexValue?_lowerHex (n := c.toNat % 16) (by omega)
  have hzero : hexValue? '0' = some 0 := rfl
  have hunit : c.toNat / 16 * 16 + c.toNat % 16 = c.toNat := Nat.div_add_mod' _ _
  have hpush : s.pushUnit c.toNat = s.push c := by
    rw [pushUnit_of_lt h, Char.ofNat_toNat]
  simp [tokensFrom, Lexing.read?, hhigh, hlow, hzero, hunit, hpush]

/-- Each character of a string is read back from its escape. -/
lemma tokensFrom_escapeChar {s : Spelled} {c : Char} :
    tokensFrom (.string s) done (escapeChar c ++ rest) =
      tokensFrom (.string (s.push c)) done rest := by
  unfold escapeChar
  split_ifs with hquote hback hfeed hreturn htab hb hf hcontrol
  · rw [hquote]
    rfl
  · rw [hback]
    rfl
  · rw [hfeed]
    rfl
  · rw [hreturn]
    rfl
  · rw [htab]
    rfl
  · rw [hb]
    rfl
  · rw [hf]
    rfl
  · exact tokensFrom_unit hcontrol
  · rw [List.singleton_append, tokensFrom, Lexing.read?, if_neg (by simpa using hquote),
      if_neg (by simpa using hback), if_neg hcontrol]
    rfl

/-- Characters that are escaped are added to the string under way as they were before. -/
lemma tokensFrom_escapeChars {chars spelled : List Char} :
    tokensFrom (.string ⟨spelled, none, true⟩) done (chars.flatMap escapeChar ++ rest) =
      tokensFrom (.string ⟨chars.reverse ++ spelled, none, true⟩) done rest := by
  induction chars generalizing spelled with
  | nil => rfl
  | cons c chars ih =>
      rw [List.flatMap_cons, List.append_assoc, tokensFrom_escapeChar, List.reverse_cons,
        List.append_assoc, List.singleton_append, ← ih]
      rfl

/-- A string ends itself: what comes after it does not matter. -/
lemma lexes_quote (s : String) : Lexes (quote s) [.simple (.string (some s))] rest := by
  intro done
  have hvalue : Spelled.value ⟨s.toList.reverse, none, true⟩ = .string (some s) := by
    simp [Spelled.value]
  rw [quote, List.cons_append, List.cons_append, List.append_assoc]
  change tokensFrom (.string ⟨[], none, true⟩) done _ = _
  rw [tokensFrom_escapeChars, List.append_nil, List.singleton_append, tokensFrom, Lexing.read?,
    if_pos (beq_self_eq_true '"'), hvalue]

/-! #### Values -/

mutual

/-- **A value is cut into its tokens**, where what comes after it does not continue it. -/
lemma lexes_chars (v : Value) (hv : v.isSound = true) {rest : List Char} (hrest : Closes rest) :
    Lexes v.chars v.tokens rest := by
  match v with
  | .null => exact lexes_null hrest
  | .bool true => exact lexes_true hrest
  | .bool false => exact lexes_false hrest
  | .number t =>
      have hlex := lexes_number hv hrest
      rwa [String.ofList_toList] at hlex
  | .string (some t) => exact lexes_quote t
  | .string none => cases hv
  | .array items =>
      have hend : Lexes [']'] [.closeArray] rest := .cons rfl lexes_nil
      rw [Value.chars, Value.tokens, List.cons_append, List.cons_append]
      exact .cons rfl ((lexes_itemChars items hv).append hend)
  | .object members =>
      have hend : Lexes ['\x7d'] [.closeObject] rest := .cons rfl lexes_nil
      rw [Value.chars, Value.tokens, List.cons_append, List.cons_append]
      exact .cons rfl ((lexes_memberChars members hv).append hend)

/-- The characters of items are cut into the tokens of the items. -/
lemma lexes_itemChars (items : List Value) (hitems : Value.itemsSound items = true)
    {rest : List Char} : Lexes (Value.itemChars items) (Value.itemTokens items) (']' :: rest) := by
  match items with
  | [] => exact lexes_nil
  | [v] =>
      rw [Value.itemsSound, Bool.and_eq_true] at hitems
      exact lexes_chars v hitems.1 (closes_cons ⟨rfl, rfl⟩)
  | v :: w :: others =>
      rw [Value.itemsSound, Bool.and_eq_true] at hitems
      have hfirst : Lexes v.chars v.tokens (',' :: Value.itemChars (w :: others) ++ ']' :: rest) :=
        lexes_chars v hitems.1 (closes_cons ⟨rfl, rfl⟩)
      exact hfirst.append (.cons rfl (lexes_itemChars (w :: others) hitems.2))

/-- The characters of members are cut into the tokens of the members. -/
lemma lexes_memberChars (members : List (Option String × Value))
    (hmembers : Value.membersSound members = true) {rest : List Char} :
    Lexes (Value.memberChars members) (Value.memberTokens members) ('\x7d' :: rest) := by
  match members with
  | [] => exact lexes_nil
  | (none, v) :: others => cases hmembers
  | [(some k, v)] =>
      rw [Value.membersSound, Bool.and_eq_true, Bool.and_eq_true] at hmembers
      exact (lexes_quote k).append
        (.cons rfl (lexes_chars v hmembers.1.2 (closes_cons ⟨rfl, rfl⟩)))
  | (some k, v) :: m :: others =>
      rw [Value.membersSound, Bool.and_eq_true, Bool.and_eq_true] at hmembers
      have hfirst : Lexes v.chars v.tokens
          (',' :: Value.memberChars (m :: others) ++ '\x7d' :: rest) :=
        lexes_chars v hmembers.1.2 (closes_cons ⟨rfl, rfl⟩)
      have hmember : Lexes (quote k ++ ':' :: v.chars)
          (.simple (.string (some k)) :: .colon :: v.tokens)
          (',' :: Value.memberChars (m :: others) ++ '\x7d' :: rest) :=
        (lexes_quote k).append (.cons rfl hfirst)
      exact hmember.append (.cons rfl (lexes_memberChars (m :: others) hmembers.2))

end

/-! ### From tokens to values -/

/-- These tokens take the reader from one state to the other. -/
def Reads (ts : List Token) (state state' : Reading) : Prop :=
  ∀ rest, valueFrom state (ts ++ rest) = valueFrom state' rest

variable {state state' state'' : Reading}

/-- Tokens read one after the other take the reader on from state to state. -/
lemma Reads.append (h : Reads ts state state') (h' : Reads ts' state' state'') :
    Reads (ts ++ ts') state state'' := by
  intro rest
  rw [List.append_assoc, h, h']

/-- No tokens leave the reader where it is. -/
lemma reads_nil : Reads [] state state := fun _ => rfl

/-- A token that can be read comes first. -/
lemma Reads.cons {t : Token} (ht : state.read? t = some state') (h : Reads ts state' state'') :
    Reads (t :: ts) state state'' := by
  intro rest
  rw [List.cons_append, valueFrom, ht]
  exact h rest

mutual

/-- **The tokens of a value are read as that value**, wherever a value may come. -/
lemma reads_tokens (v : Value) {st : List Frame} {fresh : Bool} :
    Reads v.tokens (.value st fresh) (.after v st) := by
  match v with
  | .null => exact .cons rfl reads_nil
  | .bool _ => exact .cons rfl reads_nil
  | .number _ => exact .cons rfl reads_nil
  | .string _ => exact .cons rfl reads_nil
  | .array [] => exact .cons rfl (.cons rfl reads_nil)
  | .array (w :: items) => exact .cons rfl (reads_itemTokens (w :: items) (List.cons_ne_nil w items))
  | .object [] => exact .cons rfl (.cons rfl reads_nil)
  | .object (m :: members) =>
      exact .cons rfl (reads_memberTokens (m :: members) (List.cons_ne_nil m members))

/-- The items of an array that is open are read behind those it has. -/
lemma reads_itemTokens (items : List Value) (hne : items ≠ []) {done : List Value}
    {st : List Frame} {fresh : Bool} : Reads (Value.itemTokens items ++ [.closeArray])
      (.value (.items done :: st) fresh) (.after (.array (done.reverse ++ items)) st) := by
  match items with
  | [] => exact absurd rfl hne
  | [v] =>
      refine (reads_tokens v).append (.cons ?_ reads_nil)
      rw [Reading.read?, List.reverse_cons]
  | v :: w :: rest =>
      have hrest : Reads (Value.itemTokens (w :: rest) ++ [.closeArray])
          (.value (.items (v :: done) :: st) false) _ :=
        reads_itemTokens (w :: rest) (List.cons_ne_nil w rest)
      rw [List.reverse_cons, List.append_assoc, List.singleton_append] at hrest
      rw [Value.itemTokens, List.append_assoc]
      exact (reads_tokens v).append (.cons rfl hrest)

/-- The members of an object that is open are read behind those it has. -/
lemma reads_memberTokens (members : List (Option String × Value)) (hne : members ≠ [])
    {done : List (Option String × Value)} {st : List Frame} {fresh : Bool} :
    Reads (Value.memberTokens members ++ [.closeObject])
      (.key done st fresh) (.after (.object (done.reverse ++ members)) st) := by
  match members with
  | [] => exact absurd rfl hne
  | [(k, v)] =>
      refine .cons rfl (.cons rfl ((reads_tokens v).append (.cons ?_ reads_nil)))
      rw [Reading.read?, List.reverse_cons]
  | (k, v) :: m :: rest =>
      have hrest : Reads (Value.memberTokens (m :: rest) ++ [.closeObject])
          (.key ((k, v) :: done) st false) _ :=
        reads_memberTokens (m :: rest) (List.cons_ne_nil m rest)
      rw [List.reverse_cons, List.append_assoc, List.singleton_append] at hrest
      rw [Value.memberTokens, List.append_assoc]
      exact .cons rfl (.cons rfl ((reads_tokens v).append (.cons rfl hrest)))

end

/-! ### A whole text -/

/-- **What was written is read back.** -/
theorem parse?_write (v : Value) (hv : v.isSound = true) : parse? v.write = some v := by
  have htokens : tokens? v.chars = some v.tokens := by
    have hlex := lexes_chars v hv closes_nil []
    rw [List.append_nil, List.append_nil] at hlex
    rw [tokens?, hlex]
    simp [tokensFrom, Lexing.finish?]
  have hread : Reads v.tokens (.value [] false) (.after v []) := reads_tokens v
  have hvalue := hread []
  rw [List.append_nil] at hvalue
  rw [parse?, Value.write, String.toList_ofList, htokens, Option.bind_some, hvalue]
  rfl

/-- Values that can be read back are told apart by what is written. -/
lemma write_inj {v w : Value} (hv : v.isSound = true) (hw : w.isSound = true) :
    v.write = w.write ↔ v = w := by
  refine ⟨fun h => ?_, congrArg _⟩
  have hparse := parse?_write v hv
  rw [h, parse?_write w hw] at hparse
  exact (Option.some.inj hparse).symm

end CodeReview.Json
