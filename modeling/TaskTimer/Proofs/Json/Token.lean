/-
TaskTimer.Proofs.Json.Token — the text of a value is cut into the tokens of the value.

`Json.tokens` lists the tokens of a value without a text in between. A value has a text if all its
numbers are natural and all its strings are texts (`Json.HasText`); then cutting up what `chars`
writes gives these tokens, whatever comes behind (`cut_chars`).

  §1 Numbers  — a numeral is one token, as long as nothing behind it goes on with the number
                (`EndsNumber`).
  §2 Strings  — every character is one piece of a string, escaped or not (`exists_unit`), and the
                pieces join up to the string again.
  §3 Tokens   — `CutInto` goes through a text from its end; strings and signs of punctuation end by
                themselves, so `EndsNumber` is asked for behind numerals only.
-/
import TaskTimer.Proofs.Text.Digits

namespace TaskTimer.Json

/-! ## §1 Numbers -/

/-- The text does not go on with a number in front of it. -/
def EndsNumber (cs : List Char) : Prop :=
  ∀ c ∈ cs.head?, isDigit c = false ∧ c ≠ '.' ∧ c ≠ 'e' ∧ c ≠ 'E'

theorem endsNumber_nil : EndsNumber [] := by simp [EndsNumber]

/-- A sign of punctuation ends a number. -/
theorem endsNumber_cons {c : Char} (h : isDigit c = false ∧ c ≠ '.' ∧ c ≠ 'e' ∧ c ≠ 'E')
    (cs : List Char) : EndsNumber (c :: cs) := by
  rintro d ⟨⟩
  exact h

theorem EndsNumber.takeWhile_eq {cs : List Char} (h : EndsNumber cs) :
    cs.takeWhile isDigit = [] := by
  cases cs with
  | nil => rfl
  | cons c cs => simp [(h c rfl).1]

theorem EndsNumber.dropWhile_eq {cs : List Char} (h : EndsNumber cs) :
    cs.dropWhile isDigit = cs := by
  cases cs with
  | nil => rfl
  | cons c cs => simp [(h c rfl).1]

theorem EndsNumber.fraction?_eq {cs : List Char} (h : EndsNumber cs) :
    fraction? cs = some (false, cs) := by
  cases cs with
  | nil => rfl
  | cons c cs =>
    have hpoint := (h c rfl).2.1
    rw [fraction?]
    rintro rest ⟨⟩
    exact hpoint rfl

theorem EndsNumber.exponent?_eq {cs : List Char} (h : EndsNumber cs) :
    exponent? cs = some (false, cs) := by
  cases cs with
  | nil => rfl
  | cons c cs =>
    obtain ⟨-, -, hlower, hupper⟩ := h c rfl
    rw [exponent?]
    · rintro rest ⟨⟩
      exact hlower rfl
    · rintro rest ⟨⟩
      exact hupper rfl

theorem wholePart?_decimal (n : Nat) {cs : List Char} (h : EndsNumber cs) :
    wholePart? (Digits.decimal n ++ cs) = some (n, cs) := by
  by_cases h0 : n = 0
  · subst h0
    rw [Digits.decimal_zero]
    rfl
  · have hdigits : ∀ c ∈ Digits.decimal n, isDigit c = true :=
      fun c => Digits.isDigit_of_mem_decimal
    obtain ⟨v, ds, hpos, hlt, hds⟩ := Digits.decimal_eq_cons_of_pos (Nat.pos_of_ne_zero h0)
    have hfirst : Digits.ofValue v ≠ '0' := by
      intro hzero
      have hvalue := congrArg Char.toNat hzero
      rw [Digits.toNat_ofValue hlt] at hvalue
      have : v = 0 := by simpa using hvalue
      omega
    have htake : (Digits.decimal n ++ cs).takeWhile isDigit = Digits.decimal n := by
      rw [List.takeWhile_append_of_pos hdigits, h.takeWhile_eq, List.append_nil]
    have hdrop : (Digits.decimal n ++ cs).dropWhile isDigit = cs := by
      rw [List.dropWhile_append_of_pos hdigits, h.dropWhile_eq]
    rw [wholePart?]
    · rw [htake, hdrop, if_neg (by simp [hds]), Digits.numeral_decimal]
    · intro rest hrest
      rw [hds, List.cons_append] at hrest
      exact hfirst (List.cons.inj hrest).1

theorem unsigned?_decimal (n : Nat) {cs : List Char} (h : EndsNumber cs) :
    unsigned? (Digits.decimal n ++ cs) = some (.natural n, cs) := by
  rw [unsigned?, wholePart?_decimal n h]
  simp only [h.fraction?_eq, h.exponent?_eq]
  rfl

theorem ne_of_isDigit {c : Char} (h : isDigit c = true) {d : Char} (hd : isDigit d = false) :
    c ≠ d := by
  rintro rfl
  rw [h] at hd
  cases hd

theorem isBlank_of_isDigit {c : Char} (h : isDigit c = true) : isBlank c = false := by
  simp only [isBlank, Bool.or_eq_false_iff, beq_eq_false_iff_ne]
  exact ⟨⟨⟨ne_of_isDigit h rfl, ne_of_isDigit h rfl⟩, ne_of_isDigit h rfl⟩, ne_of_isDigit h rfl⟩

/-- A digit begins a number and nothing else. -/
theorem token?_of_isDigit {c : Char} (h : isDigit c = true) (cs : List Char) :
    token? (c :: cs) = (unsigned? (c :: cs)).map fun (n, rest) => (.num n, rest) := by
  have hminus : number? (c :: cs) = unsigned? (c :: cs) := by
    rw [number?]
    rintro rest ⟨⟩
    exact ne_of_isDigit h (d := '-') rfl rfl
  rw [token?, hminus]
  all_goals
    rintro rest ⟨⟩
    exact ne_of_isDigit h rfl rfl

theorem token?_decimal (n : Nat) {cs : List Char} (h : EndsNumber cs) :
    token? (Digits.decimal n ++ cs) = some (.num (.natural n), cs) := by
  obtain ⟨c, ds, hds, hdigit⟩ := Digits.decimal_eq_cons n
  have hread := unsigned?_decimal n h
  rw [hds, List.cons_append] at hread ⊢
  rw [token?_of_isDigit hdigit, hread]
  rfl

/-! ## §2 Strings -/

theorem joinUnits_code {n : Nat} (h : n < 0xD800) (units : List StringUnit) :
    joinUnits (.code n :: units) = (joinUnits units).map (Char.ofNat n :: ·) := by
  have hhigh : isHighSurrogate n = false := by simp [isHighSurrogate]; omega
  have hlow : isLowSurrogate n = false := by simp [isLowSurrogate]; omega
  cases units with
  | nil => simp [joinUnits, hhigh, hlow]
  | cons unit units => cases unit <;> simp [joinUnits, hhigh, hlow]

theorem stringUnits_letter {letter : Char} (c : Char) (h : unescape? letter = some c)
    (rest : List Char) :
    stringUnits ('\\' :: letter :: rest) =
      (stringUnits rest).map fun (units, rest) => (.char c :: units, rest) := by
  have hu : letter ≠ 'u' := by
    rintro rfl
    cases h
  rw [stringUnits, h]
  · cases stringUnits rest <;> rfl
  · intro _ _ _ _ _ hletter _
    exact hu hletter

theorem stringUnits_code {n : Nat} (h : n < 16 ^ 4) (rest : List Char) :
    stringUnits ('\\' :: 'u' :: Digits.hex 4 n ++ rest) =
      (stringUnits rest).map fun (units, rest) => (.code n :: units, rest) := by
  obtain ⟨a, b, c, d, hdigits⟩ : ∃ a b c d, Digits.hex 4 n = [a, b, c, d] := ⟨_, _, _, _, rfl⟩
  have hread : hex4? a b c d = some n := by
    rw [hex4?, ← hdigits]
    exact Digits.ofHex?_hex h
  rw [hdigits]
  show stringUnits ('\\' :: 'u' :: a :: b :: c :: d :: rest) = _
  rw [stringUnits, hread]
  cases stringUnits rest <;> rfl

theorem stringUnits_plain {c : Char} (hquote : c ≠ '"') (hbackslash : c ≠ '\\')
    (hcontrol : 32 ≤ c.toNat) (rest : List Char) :
    stringUnits (c :: rest) =
      (stringUnits rest).map fun (units, rest) => (.char c :: units, rest) := by
  rw [stringUnits, if_neg (by simp [hbackslash]; omega)]
  · cases stringUnits rest <;> rfl
  all_goals simp_all

/-- A character is written as a letter behind a backslash, as its code, or as itself. -/
theorem escape_cases (c : Char) :
    (∃ letter, escape c = ['\\', letter] ∧ unescape? letter = some c) ∨
      (escape c = '\\' :: 'u' :: Digits.hex 4 c.toNat ∧ c.toNat < 32) ∨
      (escape c = [c] ∧ c ≠ '"' ∧ c ≠ '\\' ∧ 32 ≤ c.toNat) := by
  unfold escape
  iterate 5
    split
    next h => exact .inl ⟨_, rfl, by rw [h]; rfl⟩
  iterate 2
    split
    next h => exact .inl ⟨_, rfl, by rw [← Char.ofNat_toNat c, h]; rfl⟩
  split
  · next h => exact .inr (.inl ⟨rfl, h⟩)
  · next hquote hbackslash _ _ _ _ _ hcontrol =>
    exact .inr (.inr ⟨rfl, hquote, hbackslash, Nat.not_lt.1 hcontrol⟩)

/-- What is written for a character inside a string is read as one piece, which stands for that
character. -/
theorem exists_unit (c : Char) :
    ∃ unit : StringUnit,
      (∀ rest, stringUnits (escape c ++ rest) =
        (stringUnits rest).map fun (units, rest) => (unit :: units, rest)) ∧
      ∀ units, joinUnits (unit :: units) = (joinUnits units).map (c :: ·) := by
  rcases escape_cases c with ⟨letter, h, hletter⟩ | ⟨h, hcontrol⟩ | ⟨h, hquote, hbackslash, hc⟩
  · exact ⟨.char c, h ▸ stringUnits_letter c hletter, fun _ => rfl⟩
  · refine ⟨.code c.toNat, h ▸ stringUnits_code (by omega), fun units => ?_⟩
    rw [joinUnits_code (by omega), Char.ofNat_toNat]
  · exact ⟨.char c, h ▸ stringUnits_plain hquote hbackslash hc, fun _ => rfl⟩

/-- A string is read as pieces that join up to it. -/
theorem exists_units (cs rest : List Char) :
    ∃ units, stringUnits (cs.flatMap escape ++ '"' :: rest) = some (units, rest) ∧
      joinUnits units = some cs := by
  induction cs with
  | nil => exact ⟨[], rfl, rfl⟩
  | cons c cs ih =>
    obtain ⟨units, hunits, hjoin⟩ := ih
    obtain ⟨unit, hread, hstands⟩ := exists_unit c
    refine ⟨unit :: units, ?_, ?_⟩
    · rw [List.flatMap_cons, List.append_assoc, hread, hunits]
      rfl
    · rw [hstands, hjoin]
      rfl

theorem token?_renderString (s : String) (rest : List Char) :
    token? (renderString s ++ rest) = some (.str (some s), rest) := by
  obtain ⟨units, hunits, hjoin⟩ := exists_units s.toList rest
  have hquotes : renderString s ++ rest = '"' :: (s.toList.flatMap escape ++ '"' :: rest) := by
    simp [renderString]
  rw [hquotes, token?, hunits]
  simp [hjoin]

/-! ## §3 Tokens -/

mutual

/-- The tokens of a value. -/
def tokens : Json → List Token
  | .null => [.null]
  | .bool b => [.bool b]
  | .num n => [.num n]
  | .str s => [.str s]
  | .arr [] => [.openArray, .closeArray]
  | .arr (x :: xs) => .openArray :: (tokens x ++ tokensOfElements xs ++ [.closeArray])
  | .obj [] => [.openObject, .closeObject]
  | .obj ((name, x) :: fields) =>
    .openObject :: .str name :: .colon :: (tokens x ++ tokensOfFields fields ++ [.closeObject])

/-- The tokens of the elements of an array after the first, each behind a comma. -/
def tokensOfElements : List Json → List Token
  | [] => []
  | x :: xs => .comma :: (tokens x ++ tokensOfElements xs)

/-- The tokens of the fields of an object after the first, each behind a comma. -/
def tokensOfFields : List (Option String × Json) → List Token
  | [] => []
  | (name, x) :: fields => .comma :: .str name :: .colon :: (tokens x ++ tokensOfFields fields)

end

/-- All numbers in the value are natural, and all strings and names in it are texts. -/
inductive HasText : Json → Prop
  | null : HasText .null
  | bool (b : Bool) : HasText (.bool b)
  | nat (n : Nat) : HasText (.nat n)
  | text (s : String) : HasText (.text s)
  | arr {xs : List Json} : (∀ x ∈ xs, HasText x) → HasText (.arr xs)
  | obj {fields : List (Option String × Json)} :
      (∀ f ∈ fields, ∃ name, f.1 = some name) → (∀ f ∈ fields, HasText f.2) → HasText (.obj fields)

/-- The text is cut into these tokens, which are no more than its characters. -/
structure CutInto (cs : List Char) (ts : List Token) : Prop where
  length_le : ts.length ≤ cs.length
  tokensUpTo_eq : ∀ bound, ts.length ≤ bound → tokensUpTo bound cs = some ts

namespace CutInto

theorem nil : CutInto [] [] where
  length_le := Nat.le_refl _
  tokensUpTo_eq bound _ := by cases bound <;> rfl

/-- One token more, in front. -/
theorem cons {c : Char} {cs rest : List Char} {t : Token} {ts : List Token}
    (hread : token? (c :: cs) = some (t, rest)) (hblank : isBlank c = false)
    (hlength : rest.length ≤ cs.length) (h : CutInto rest ts) : CutInto (c :: cs) (t :: ts) where
  length_le := Nat.succ_le_succ (Nat.le_trans h.length_le hlength)
  tokensUpTo_eq bound hbound := by
    obtain ⟨bound, rfl⟩ : ∃ b, bound = b + 1 := ⟨bound - 1, by simp at hbound; omega⟩
    have hrest : tokensUpTo bound rest = some ts :=
      h.tokensUpTo_eq bound (Nat.le_of_succ_le_succ hbound)
    simp [tokensUpTo, hblank, hread, hrest]

/-- One token more that is a single character. -/
theorem sign {c : Char} {cs : List Char} {t : Token} {ts : List Token} (h : CutInto cs ts)
    (hread : token? (c :: cs) = some (t, cs)) (hblank : isBlank c = false) :
    CutInto (c :: cs) (t :: ts) :=
  cons hread hblank (Nat.le_refl _) h

theorem decimal {cs : List Char} {ts : List Token} (h : CutInto cs ts) (n : Nat)
    (hends : EndsNumber cs) : CutInto (Digits.decimal n ++ cs) (.num (.natural n) :: ts) := by
  obtain ⟨c, ds, hds, hdigit⟩ := Digits.decimal_eq_cons n
  have hread := token?_decimal n hends
  rw [hds, List.cons_append] at hread ⊢
  exact cons hread (isBlank_of_isDigit hdigit) (by simp) h

theorem renderString {cs : List Char} {ts : List Token} (h : CutInto cs ts) (s : String) :
    CutInto (Json.renderString s ++ cs) (.str (some s) :: ts) := by
  have hread := token?_renderString s cs
  rw [Json.renderString, List.cons_append, List.cons_append] at hread ⊢
  exact cons hread rfl (by simp; omega) h

theorem tokens?_eq {cs : List Char} {ts : List Token} (h : CutInto cs ts) :
    tokens? cs = some ts :=
  h.tokensUpTo_eq _ h.length_le

end CutInto

/-- The characters of the value are cut into its tokens, in front of all that ends a number. -/
def CutsUp (x : Json) : Prop :=
  ∀ {cs : List Char} {ts : List Token}, EndsNumber cs → CutInto cs ts →
    CutInto (x.chars ++ cs) (x.tokens ++ ts)

theorem endsNumber_elements (xs : List Json) {cs : List Char} (h : EndsNumber cs) :
    EndsNumber (charsOfElements xs ++ cs) := by
  cases xs with
  | nil => exact h
  | cons x xs => exact endsNumber_cons (by decide) _

theorem endsNumber_fields (fields : List (Option String × Json)) {cs : List Char}
    (h : EndsNumber cs) : EndsNumber (charsOfFields fields ++ cs) := by
  cases fields with
  | nil => exact h
  | cons f fields => exact endsNumber_cons (by decide) _

theorem cut_elements {xs : List Json} (hxs : ∀ x ∈ xs, CutsUp x) {cs : List Char}
    {ts : List Token} (hends : EndsNumber cs) (h : CutInto cs ts) :
    CutInto (charsOfElements xs ++ cs) (tokensOfElements xs ++ ts) := by
  induction xs with
  | nil => exact h
  | cons x xs ih =>
    obtain ⟨hx, hxs⟩ := List.forall_mem_cons.1 hxs
    have hrest := hx (endsNumber_elements xs hends) (ih hxs)
    simp only [charsOfElements, tokensOfElements, List.cons_append, List.append_assoc]
    exact hrest.sign rfl rfl

/-- A name, a colon and a value. -/
theorem cut_field {name : Option String} {x : Json} (hname : ∃ s, name = some s) (hx : CutsUp x)
    {cs : List Char} {ts : List Token} (hends : EndsNumber cs) (h : CutInto cs ts) :
    CutInto (renderName name ++ ':' :: (x.chars ++ cs))
      (.str name :: .colon :: (x.tokens ++ ts)) := by
  obtain ⟨s, rfl⟩ := hname
  have hvalue := hx hends h
  have hcolon : CutInto (':' :: (x.chars ++ cs)) (.colon :: (x.tokens ++ ts)) :=
    hvalue.sign rfl rfl
  exact hcolon.renderString s

theorem cut_fields {fields : List (Option String × Json)}
    (hnames : ∀ f ∈ fields, ∃ name, f.1 = some name) (hxs : ∀ f ∈ fields, CutsUp f.2)
    {cs : List Char} {ts : List Token} (hends : EndsNumber cs) (h : CutInto cs ts) :
    CutInto (charsOfFields fields ++ cs) (tokensOfFields fields ++ ts) := by
  induction fields with
  | nil => exact h
  | cons f fields ih =>
    obtain ⟨hname, hnames⟩ := List.forall_mem_cons.1 hnames
    obtain ⟨hx, hxs⟩ := List.forall_mem_cons.1 hxs
    have hfield := cut_field hname hx (endsNumber_fields fields hends) (ih hnames hxs)
    simp only [charsOfFields, tokensOfFields, List.cons_append, List.append_assoc]
    exact hfield.sign rfl rfl

theorem cut_arr {xs : List Json} (hxs : ∀ x ∈ xs, CutsUp x) : CutsUp (.arr xs) := by
  intro cs ts _ h
  have hclose : CutInto (']' :: cs) (.closeArray :: ts) := h.sign rfl rfl
  cases xs with
  | nil => exact hclose.sign rfl rfl
  | cons x xs =>
    obtain ⟨hx, hxs⟩ := List.forall_mem_cons.1 hxs
    have hends : EndsNumber (']' :: cs) := endsNumber_cons (by decide) cs
    have hall := hx (endsNumber_elements xs hends) (cut_elements hxs hends hclose)
    simp only [chars, tokens, List.cons_append, List.append_assoc, List.nil_append]
    exact hall.sign rfl rfl

theorem cut_obj {fields : List (Option String × Json)}
    (hnames : ∀ f ∈ fields, ∃ name, f.1 = some name) (hxs : ∀ f ∈ fields, CutsUp f.2) :
    CutsUp (.obj fields) := by
  intro cs ts _ h
  have hclose : CutInto ('\x7d' :: cs) (.closeObject :: ts) := h.sign rfl rfl
  cases fields with
  | nil => exact hclose.sign rfl rfl
  | cons f fields =>
    obtain ⟨hname, hnames⟩ := List.forall_mem_cons.1 hnames
    obtain ⟨hx, hxs⟩ := List.forall_mem_cons.1 hxs
    have hends : EndsNumber ('\x7d' :: cs) := endsNumber_cons (by decide) cs
    have hall := cut_field hname hx (endsNumber_fields fields hends)
      (cut_fields hnames hxs hends hclose)
    simp only [chars, tokens, List.cons_append, List.append_assoc, List.nil_append]
    exact hall.sign rfl rfl

/-- The text of a value is cut into the tokens of the value. -/
theorem cut_chars {x : Json} (h : HasText x) : CutsUp x := by
  induction h with
  | null =>
    intro cs ts _ h
    exact h.cons (c := 'n') rfl rfl (by simp; omega)
  | bool b =>
    intro cs ts _ h
    cases b with
    | true => exact h.cons (c := 't') rfl rfl (by simp; omega)
    | false => exact h.cons (c := 'f') rfl rfl (by simp; omega)
  | nat n =>
    intro cs ts hends h
    exact h.decimal n hends
  | text s =>
    intro cs ts _ h
    exact h.renderString s
  | arr _ ih => exact cut_arr ih
  | obj hnames _ ih => exact cut_obj hnames ih

/-- A text that is written is cut into the tokens of the value that it was written for. -/
theorem tokens?_chars {x : Json} (h : HasText x) : tokens? x.chars = some x.tokens := by
  have := cut_chars h endsNumber_nil CutInto.nil
  rw [List.append_nil, List.append_nil] at this
  exact this.tokens?_eq

end TaskTimer.Json
