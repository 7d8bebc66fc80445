/-
# Telegram.Json — the `encoding/json` reader, and the objects it writes

`json.Unmarshal` first checks that the whole input is one JSON value with only white
space around it, and changes nothing when it is not; then it decodes into the target,
saving the first type error and carrying on. This module is the first half: the value
tree (numbers keep their literal text, since `ParseInt` reads it later) and a parser over
`List Char` that accepts exactly that grammar. `json.Marshal` writes an object as `{`, its
members `"name":value` joined by `,`, and `}`, with no white space.

* `scanNumber_formatInt`: a number `FormatInt` wrote scans back whole;
* `parseValue_objectText`, `parseJson_objectText`: an object written with plain keys and
  values that read back reads back whole, whatever follows it;
* `parseJson_objectText_cut`: no proper prefix of such an object passes `checkValid`.
-/
import Gogram.Telegram.Decimal
import Mathlib.Data.Char

namespace Gogram.Telegram

set_option autoImplicit false

/-- A JSON value. -/
inductive Json where
  | null
  | bool (b : Bool)
  | number (lit : List Char)
  | string (s : List Char)
  | array (elems : List Json)
  | object (members : List (List Char × Json))
  deriving Repr

def isWs (c : Char) : Bool := c == ' ' || c == '\t' || c == '\n' || c == '\r'

def skipWs (s : List Char) : List Char := s.dropWhile isWs

def isDigit (c : Char) : Bool := '0' ≤ c && c ≤ '9'

/-! ## Numbers -/

/-- `[0-9]+`, the longest run. -/
def scanDigits (s : List Char) : Option (List Char × List Char) :=
  match s.takeWhile isDigit with
  | [] => none
  | ds => some (ds, s.dropWhile isDigit)

/-- `0 | [1-9][0-9]*`. -/
def scanInt : List Char → Option (List Char × List Char)
  | '0' :: r => some (['0'], r)
  | c :: r => if '1' ≤ c ∧ c ≤ '9' then some (c :: r.takeWhile isDigit, r.dropWhile isDigit) else none
  | [] => none

/-- `(. [0-9]+)?`. -/
def scanFrac : List Char → Option (List Char × List Char)
  | '.' :: r => (scanDigits r).map fun p => ('.' :: p.1, p.2)
  | s => some ([], s)

/-- `([eE] [+-]? [0-9]+)?`. -/
def scanExp : List Char → Option (List Char × List Char)
  | e :: r =>
      if e = 'e' ∨ e = 'E' then
        let (sign, r) := match r with
          | '+' :: r => (['+'], r)
          | '-' :: r => (['-'], r)
          | r => ([], r)
        (scanDigits r).map fun p => (e :: sign ++ p.1, p.2)
      else some ([], e :: r)
  | [] => some ([], [])

/-- A number literal: `-? int frac? exp?`, the longest match. -/
def scanNumber (s : List Char) : Option (List Char × List Char) :=
  let (sign, s) := match s with
    | '-' :: r => (['-'], r)
    | s => ([], s)
  (scanInt s).bind fun (i, s) => (scanFrac s).bind fun (f, s) =>
    (scanExp s).map fun (e, s) => (sign ++ i ++ f ++ e, s)

/-! ## Strings -/

def hexVal (c : Char) : Option Nat :=
  if '0' ≤ c ∧ c ≤ '9' then some (c.toNat - 48)
  else if 'a' ≤ c ∧ c ≤ 'f' then some (c.toNat - 87)
  else if 'A' ≤ c ∧ c ≤ 'F' then some (c.toNat - 55)
  else none

/-- `getu4`: four hex digits. -/
def hex4 (a b c d : Char) : Option Nat := do
  pure ((((← hexVal a) * 16 + (← hexVal b)) * 16 + (← hexVal c)) * 16 + (← hexVal d))

def isSurrogate (u : Nat) : Bool := 0xD800 ≤ u && u < 0xE000

/-- `utf16.DecodeRune`: a high and a low surrogate make one rune. -/
def decodePair (u u2 : Nat) : Option Char :=
  if 0xD800 ≤ u ∧ u < 0xDC00 ∧ 0xDC00 ≤ u2 ∧ u2 < 0xE000 then
    some (Char.ofNat (0x10000 + (u - 0xD800) * 0x400 + (u2 - 0xDC00)))
  else none

def simpleEscape : Char → Option Char
  | '"' => some '"'
  | '\\' => some '\\'
  | '/' => some '/'
  | 'b' => some '\x08'
  | 'f' => some '\x0c'
  | 'n' => some '\n'
  | 'r' => some '\r'
  | 't' => some '\t'
  | _ => none

mutual

/-- The body of a string literal after its opening quote, unquoted, and what follows the
closing quote. Control characters and bad escapes are syntax errors. -/
def parseString : List Char → Option (List Char × List Char)
  | [] => none
  | c :: r =>
      if c = '"' then some ([], r)
      else if c = '\\' then parseEscape r
      else if c.toNat < 0x20 then none
      else (parseString r).map fun p => (c :: p.1, p.2)

/-- After a backslash: a `\uXXXX` escape (a lone surrogate becomes U+FFFD, as `unquote`
does) or a one-character escape. -/
def parseEscape : List Char → Option (List Char × List Char)
  | 'u' :: a :: b :: c :: d :: rest@('\\' :: 'u' :: e :: f :: g :: h :: r) =>
      (hex4 a b c d).bind fun u => (hex4 e f g h).bind fun u2 =>
        if isSurrogate u then
          match decodePair u u2 with
          | some ch => (parseString r).map fun p => (ch :: p.1, p.2)
          | none => (parseString rest).map fun p => ('\uFFFD' :: p.1, p.2)
        else (parseString rest).map fun p => (Char.ofNat u :: p.1, p.2)
  | 'u' :: a :: b :: c :: d :: r =>
      (hex4 a b c d).bind fun u =>
        (parseString r).map fun p => ((if isSurrogate u then '\uFFFD' else Char.ofNat u) :: p.1, p.2)
  | c :: r => (simpleEscape c).bind fun ch => (parseString r).map fun p => (ch :: p.1, p.2)
  | [] => none

end

/-! ## Values -/

mutual

/-- One value after optional white space, and what follows it; `fuel` bounds the
nesting. -/
def parseValue : Nat → List Char → Option (Json × List Char)
  | 0, _ => none
  | fuel + 1, s =>
      match skipWs s with
      | '{' :: r =>
          match skipWs r with
          | '}' :: r => some (.object [], r)
          | _ => parseMembers fuel [] r
      | '[' :: r =>
          match skipWs r with
          | ']' :: r => some (.array [], r)
          | _ => parseElements fuel [] r
      | '"' :: r => (parseString r).map fun p => (.string p.1, p.2)
      | 'n' :: 'u' :: 'l' :: 'l' :: r => some (.null, r)
      | 't' :: 'r' :: 'u' :: 'e' :: r => some (.bool true, r)
      | 'f' :: 'a' :: 'l' :: 's' :: 'e' :: r => some (.bool false, r)
      | s => (scanNumber s).map fun p => (.number p.1, p.2)

/-- `"key" : value` members after `{` or `,`, up to the closing brace. -/
def parseMembers : Nat → List (List Char × Json) → List Char → Option (Json × List Char)
  | 0, _, _ => none
  | fuel + 1, acc, s =>
      match skipWs s with
      | '"' :: r =>
          (parseString r).bind fun (key, r) =>
            match skipWs r with
            | ':' :: r =>
                (parseValue fuel r).bind fun (v, r) =>
                  match skipWs r with
                  | ',' :: r => parseMembers fuel (acc ++ [(key, v)]) r
                  | '}' :: r => some (.object (acc ++ [(key, v)]), r)
                  | _ => none
            | _ => none
      | _ => none

/-- Elements after `[` or `,`, up to the closing bracket. -/
def parseElements : Nat → List Json → List Char → Option (Json × List Char)
  | 0, _, _ => none
  | fuel + 1, acc, s =>
      (parseValue fuel s).bind fun (v, r) =>
        match skipWs r with
        | ',' :: r => parseElements fuel (acc ++ [v]) r
        | ']' :: r => some (.array (acc ++ [v]), r)
        | _ => none

end

/-- `checkValid` and the scan: the whole input is one value with white space around. Each
level of nesting costs two calls and has two bracket characters, so `length + 1` is
enough fuel. -/
def parseJson (s : List Char) : Option Json :=
  match parseValue (s.length + 1) s with
  | some (v, r) => if skipWs r = [] then some v else none
  | none => none

/-! ## Writing objects -/

def joinComma : List (List Char) → List Char
  | [] => []
  | [x] => x
  | x :: xs => x ++ ',' :: joinComma xs

/-- `"name":value`. -/
def member (name value : List Char) : List Char := '"' :: name ++ '"' :: ':' :: value

/-- An object as `encoding/json` writes it: `{`, the members joined by `,`, and `}`. -/
def objectText (ms : List (List Char × List Char)) : List Char :=
  '{' :: joinComma (ms.map fun kv => member kv.1 kv.2) ++ ['}']

/-! ## Reading back the characters `encoding/json` writes -/

/-- A key the parser reads back as it is: no quote, backslash or control character, so
`Marshal` writes it unescaped. -/
def Plain (k : List Char) : Prop := ∀ c ∈ k, c ≠ '"' ∧ c ≠ '\\' ∧ 0x20 ≤ c.toNat

theorem skipWs_cons {c : Char} (h : isWs c = false) (r : List Char) : skipWs (c :: r) = c :: r :=
  List.dropWhile_cons_of_neg (by simp [h])

theorem parseString_cons {c : Char} (h1 : c ≠ '"') (h2 : c ≠ '\\') (h3 : 0x20 ≤ c.toNat)
    (r : List Char) : parseString (c :: r) = (parseString r).map fun p => (c :: p.1, p.2) := by
  rw [parseString]
  simp [h1, h2, Nat.not_lt.mpr h3]

theorem parseString_plain {k : List Char} (hk : Plain k) (rest : List Char) :
    parseString (k ++ '"' :: rest) = some (k, rest) := by
  induction k with
  | nil => rw [List.nil_append, parseString]; simp
  | cons c k ih =>
      obtain ⟨h1, h2, h3⟩ := hk c (.head _)
      rw [List.cons_append, parseString_cons h1 h2 h3, ih fun c hc => hk c (.tail _ hc)]
      rfl

theorem digitChar_plain : ∀ d < 10, digitChar d ≠ '"' ∧ digitChar d ≠ '\\' ∧
    0x20 ≤ (digitChar d).toNat ∧ isDigit (digitChar d) = true := by
  decide

theorem formatInt_plain (x : Int) : Plain (formatInt x) := by
  have hdig : Plain (natText x.natAbs) := fun c hc => by
    obtain ⟨d, hd, rfl⟩ := List.mem_map.mp hc
    obtain ⟨h1, h2, h3, -⟩ := digitChar_plain d ((decimalDigits_spec _).2.1 d hd)
    exact ⟨h1, h2, h3⟩
  unfold formatInt
  split
  · rintro c (_ | ⟨_, hc⟩)
    · decide
    · exact hdig c hc
  · exact hdig

theorem formatInt_ne_nil (x : Int) : formatInt x ≠ [] := by
  obtain ⟨d, ds, hdd, -⟩ := decimalDigits_head x.natAbs
  unfold formatInt natText
  rw [hdd]
  split <;> simp

/-- The characters that may follow a value inside an object. -/
def Delim (c : Char) : Prop := c = ',' ∨ c = '}'

theorem scanFrac_delim {c : Char} (hc : Delim c) (rest : List Char) :
    scanFrac (c :: rest) = some ([], c :: rest) := by
  rcases hc with rfl | rfl <;> rfl

theorem scanExp_delim {c : Char} (hc : Delim c) (rest : List Char) :
    scanExp (c :: rest) = some ([], c :: rest) := by
  rcases hc with rfl | rfl <;> rfl

theorem isDigit_delim {c : Char} (hc : Delim c) : isDigit c = false := by
  rcases hc with rfl | rfl <;> rfl

theorem isWs_delim {c : Char} (hc : Delim c) : isWs c = false := by
  rcases hc with rfl | rfl <;> rfl

theorem scanInt_nonzero : ∀ d, 1 ≤ d → d < 10 → ∀ r : List Char,
    scanInt (digitChar d :: r) = some (digitChar d :: r.takeWhile isDigit, r.dropWhile isDigit) := by
  intro d h1 h2 r
  interval_cases d <;> rfl

theorem scanInt_digits : ∀ d < 10, ∀ ds : List Nat, (∀ e ∈ ds, e < 10) → (d = 0 → ds = []) →
    ∀ {c : Char}, Delim c → ∀ rest : List Char,
      scanInt ((d :: ds).map digitChar ++ c :: rest) = some ((d :: ds).map digitChar, c :: rest) := by
  intro d hd ds hds h0 c hc rest
  have hall : ∀ a ∈ ds.map digitChar, isDigit a = true := by
    simpa using fun e he => (digitChar_plain e (hds e he)).2.2.2
  rcases Nat.eq_zero_or_pos d with rfl | h1
  · rw [h0 rfl]
    rfl
  · rw [List.map_cons, List.cons_append, scanInt_nonzero d h1 hd,
      List.takeWhile_append_of_pos hall, List.dropWhile_append_of_pos hall,
      List.takeWhile_cons_of_neg (by simp [isDigit_delim hc]),
      List.dropWhile_cons_of_neg (by simp [isDigit_delim hc]), List.append_nil]

theorem scanNumber_digit : ∀ d < 10, ∀ r : List Char,
    scanNumber (digitChar d :: r) = (scanInt (digitChar d :: r)).bind fun (i, s) =>
      (scanFrac s).bind fun (f, s) => (scanExp s).map fun (e, s) => (i ++ f ++ e, s) := by
  intro d hd r
  interval_cases d <;> rfl

theorem parseValue_digit : ∀ d < 10, ∀ (F : Nat) (r : List Char),
    parseValue (F + 1) (digitChar d :: r) = (scanNumber (digitChar d :: r)).map fun p => (.number p.1, p.2) := by
  intro d hd F r
  interval_cases d <;> rfl

/-- **A number `FormatInt` wrote scans back whole**, up to the `,` or `}` after it. -/
theorem scanNumber_formatInt (x : Int) {c : Char} (hc : Delim c) (rest : List Char) :
    scanNumber (formatInt x ++ c :: rest) = some (formatInt x, c :: rest) := by
  obtain ⟨d, ds, hdd, h0⟩ := decimalDigits_head x.natAbs
  obtain ⟨-, hR, -⟩ := decimalDigits_spec x.natAbs
  rw [hdd] at hR
  have hd : d < 10 := hR d (.head _)
  have hint := scanInt_digits d hd ds (fun e he => hR e (.tail _ he)) h0 hc rest
  unfold formatInt natText
  rw [hdd]
  split
  · simp only [List.cons_append, scanNumber]
    rw [hint]
    simp [scanFrac_delim hc, scanExp_delim hc]
  · rw [List.map_cons, List.cons_append, scanNumber_digit d hd, ← List.cons_append, ← List.map_cons,
      hint]
    simp [scanFrac_delim hc, scanExp_delim hc]

/-- A number's text starts with `-` or a digit, so the parser reads it as a number. -/
theorem parseValue_formatInt_scan (x : Int) (F : Nat) (r : List Char) :
    parseValue (F + 1) (formatInt x ++ r) =
      (scanNumber (formatInt x ++ r)).map fun p => (.number p.1, p.2) := by
  obtain ⟨d, ds, hdd, -⟩ := decimalDigits_head x.natAbs
  have hd : d < 10 := (decimalDigits_spec x.natAbs).2.1 d (hdd ▸ .head _)
  unfold formatInt natText
  rw [hdd]
  split
  · rfl
  · exact parseValue_digit d hd F _

/-! ## Objects -/

/-- `t` is a text of the value `j` inside an object: with as much fuel as `t` has
characters, the parser reads `j` from it, up to the `,` or `}` after it. -/
def ValueText (t : List Char) (j : Json) : Prop :=
  ∀ fuel, t.length ≤ fuel → ∀ {c : Char}, Delim c → ∀ rest,
    parseValue fuel (t ++ c :: rest) = some (j, c :: rest)

theorem valueText_formatInt (x : Int) : ValueText (formatInt x) (.number (formatInt x)) := by
  intro fuel hf c hc rest
  have hpos : 0 < (formatInt x).length := List.length_pos.mpr (formatInt_ne_nil x)
  obtain ⟨F, rfl⟩ : ∃ G, fuel = G + 1 := ⟨fuel - 1, by omega⟩
  rw [parseValue_formatInt_scan, scanNumber_formatInt x hc rest]
  rfl

theorem length_member (k t : List Char) : (member k t).length = k.length + t.length + 3 := by
  simp [member]
  omega

/-- One member `"k":t`, then the `,` or `}` that ends it. -/
theorem parseMembers_member {k t : List Char} {j : Json} (hk : Plain k) (ht : ValueText t j)
    {F : Nat} (hF : t.length ≤ F) {c : Char} (hc : Delim c) (acc : List (List Char × Json))
    (rest : List Char) :
    parseMembers (F + 1) acc (member k t ++ c :: rest) =
      match c :: rest with
      | ',' :: r => parseMembers F (acc ++ [(k, j)]) r
      | '}' :: r => some (.object (acc ++ [(k, j)]), r)
      | _ => none := by
  simp only [member, List.cons_append, List.append_assoc, parseMembers, skipWs_cons (c := '"') rfl,
    parseString_plain hk, Option.some_bind, skipWs_cons (c := ':') rfl, ht F hF hc,
    skipWs_cons (isWs_delim hc)]

/-- Members joined by `,` and closed by `}` read back one by one, given as much fuel as
they have characters. -/
theorem parseMembers_joined (L : List (List Char × List Char × Json))
    (hL : ∀ x ∈ L, Plain x.1 ∧ ValueText x.2.1 x.2.2) (hne : L ≠ []) :
    ∀ (acc : List (List Char × Json)) (F : Nat) (rest : List Char),
      (joinComma (L.map fun x => member x.1 x.2.1)).length < F →
      parseMembers F acc (joinComma (L.map fun x => member x.1 x.2.1) ++ '}' :: rest) =
        some (.object (acc ++ L.map fun x => (x.1, x.2.2)), rest) := by
  induction L with
  | nil => exact absurd rfl hne
  | cons x xs ih =>
    intro acc F rest hF
    obtain ⟨hk, ht⟩ := hL x (.head _)
    cases xs with
    | nil =>
      obtain ⟨F, rfl⟩ : ∃ G, F = G + 1 := ⟨F - 1, by omega⟩
      simp only [List.map_cons, List.map_nil, joinComma, length_member] at hF ⊢
      rw [parseMembers_member hk ht (by omega) (.inr rfl)]
      simp
    | cons y ys =>
      simp only [List.map_cons, joinComma, List.length_append, List.length_cons, length_member] at hF ⊢
      obtain ⟨F, rfl⟩ : ∃ G, F = G + 1 := ⟨F - 1, by omega⟩
      rw [List.append_assoc, List.cons_append, parseMembers_member hk ht (by omega) (.inl rfl)]
      have hrest := ih (fun z hz => hL z (.tail _ hz)) (List.cons_ne_nil _ _) (acc ++ [(x.1, x.2.2)]) F rest
      simp only [List.map_cons, joinComma] at hrest
      exact (hrest (by omega)).trans (by simp)

theorem joinComma_member_cons (k t : List Char) (ms : List (List Char)) (r : List Char) :
    ∃ s, joinComma (member k t :: ms) ++ r = '"' :: s := by
  cases ms <;> exact ⟨_, rfl⟩

theorem objectText_append (L : List (List Char × List Char × Json)) (rest : List Char) :
    objectText (L.map fun x => (x.1, x.2.1)) ++ rest =
      '{' :: (joinComma (L.map fun x => member x.1 x.2.1) ++ '}' :: rest) := by
  simp [objectText, Function.comp_def]

theorem parseValue_open (F : Nat) (r : List Char) :
    parseValue (F + 1) ('{' :: '"' :: r) = parseMembers F [] ('"' :: r) := rfl

/-- **An object `encoding/json` wrote reads back whole**, whatever follows it, given as much
fuel as it has characters. -/
theorem parseValue_objectText (L : List (List Char × List Char × Json))
    (hL : ∀ x ∈ L, Plain x.1 ∧ ValueText x.2.1 x.2.2) (fuel : Nat) (rest : List Char)
    (h : (objectText (L.map fun x => (x.1, x.2.1))).length ≤ fuel) :
    parseValue fuel (objectText (L.map fun x => (x.1, x.2.1)) ++ rest) =
      some (.object (L.map fun x => (x.1, x.2.2)), rest) := by
  rw [objectText_append]
  simp only [objectText, List.length_cons, List.length_append, List.length_nil, List.map_map,
    Function.comp_def] at h
  obtain ⟨F, rfl⟩ : ∃ G, fuel = G + 1 := ⟨fuel - 1, by omega⟩
  cases L with
  | nil => rfl
  | cons x xs =>
    obtain ⟨s, hs⟩ := joinComma_member_cons x.1 x.2.1 (xs.map fun x => member x.1 x.2.1) ('}' :: rest)
    have hj := parseMembers_joined (x :: xs) hL (List.cons_ne_nil _ _) [] F rest (by omega)
    rw [List.map_cons] at hj ⊢
    rw [hs, parseValue_open, ← hs, hj, List.nil_append]

theorem valueText_objectText (L : List (List Char × List Char × Json))
    (hL : ∀ x ∈ L, Plain x.1 ∧ ValueText x.2.1 x.2.2) :
    ValueText (objectText (L.map fun x => (x.1, x.2.1))) (.object (L.map fun x => (x.1, x.2.2))) :=
  fun fuel h _ _ _ => parseValue_objectText L hL fuel _ h

/-- `checkValid` accepts a whole object `encoding/json` wrote. -/
theorem parseJson_objectText (L : List (List Char × List Char × Json))
    (hL : ∀ x ∈ L, Plain x.1 ∧ ValueText x.2.1 x.2.2) :
    parseJson (objectText (L.map fun x => (x.1, x.2.1))) = some (.object (L.map fun x => (x.1, x.2.2))) := by
  have h := parseValue_objectText L hL _ [] (Nat.le_succ _)
  rw [List.append_nil] at h
  simp [parseJson, h, skipWs]

theorem valueText_null : ValueText "null".toList .null := by
  intro fuel h c hc rest
  obtain ⟨F, rfl⟩ : ∃ G, fuel = G + 1 := ⟨fuel - 1, by simp at h; omega⟩
  rfl

/-- `{"name":null}` passes `checkValid` and reads as one `null` member. -/
theorem parseJson_null_member {name : List Char} (hn : Plain name) :
    parseJson (objectText [(name, "null".toList)]) = some (.object [(name, .null)]) :=
  parseJson_objectText [(name, "null".toList, .null)] fun x hx => by
    rw [List.mem_singleton.mp hx]
    exact ⟨hn, valueText_null⟩

/-! ## A text cut short

`flushToFile` can stop writing part-way through. What it leaves is a prefix of what
`encoding/json` wrote; these lemmas say what the parser makes of such a prefix. A number
cut short still scans (as a shorter number), but nothing can follow it; an object cut short
never reaches its closing brace, so the parser rejects it, whatever the fuel. -/

theorem prefix_append_cases {α : Type} {q a b : List α} (h : q <+: a ++ b) :
    q <+: a ∨ ∃ q', q = a ++ q' ∧ q' <+: b := by
  rcases List.prefix_or_prefix_of_prefix h (List.prefix_append a b) with hq | ⟨q', rfl⟩
  · exact .inl hq
  · exact .inr ⟨q', rfl, (List.prefix_append_right_inj a).mp h⟩

theorem parseValue_nil (fuel : Nat) : parseValue fuel [] = none := by
  cases fuel <;> rfl

theorem parseMembers_nil (fuel : Nat) (acc : List (List Char × Json)) : parseMembers fuel acc [] = none := by
  cases fuel <;> rfl

/-- A string body with no closing quote runs off the end. -/
theorem parseString_of_plain {q : List Char} (hq : Plain q) : parseString q = none := by
  induction q with
  | nil => rw [parseString]
  | cons c q ih =>
    obtain ⟨h1, h2, h3⟩ := hq c (.head _)
    rw [parseString_cons h1 h2 h3, ih fun c hc => hq c (.tail _ hc), Option.map_none']

/-- One member `"k":`, then the value and the `,` or `}` after it. -/
theorem parseMembers_key {k : List Char} (hk : Plain k) (F : Nat) (acc : List (List Char × Json))
    (s : List Char) :
    parseMembers (F + 1) acc ('"' :: (k ++ '"' :: ':' :: s)) =
      (parseValue F s).bind fun p =>
        match skipWs p.2 with
        | ',' :: r => parseMembers F (acc ++ [(k, p.1)]) r
        | '}' :: r => some (.object (acc ++ [(k, p.1)]), r)
        | _ => none := by
  simp only [parseMembers, skipWs_cons (c := '"') rfl, parseString_plain hk, Option.some_bind,
    skipWs_cons (c := ':') rfl]

/-- What the parser makes of `t`, written inside an object as the value `j`, and of every
prefix of it: followed by `,` or `}` it reads `j` and stops there, or fails for want of
fuel; cut short, it reads nothing, or a value that uses up what was left. -/
structure Written (t : List Char) (j : Json) : Prop where
  delim : ∀ fuel {c : Char}, Delim c → ∀ rest x, parseValue fuel (t ++ c :: rest) = some x →
    x = (j, c :: rest)
  cut : ∀ p, p <+: t → ∀ fuel x, parseValue fuel p = some x → x.2 = []

/-- Every prefix of a member `"k":t` leaves the member list open. -/
theorem parseMembers_member_cut {k t : List Char} {j : Json} (hk : Plain k) (ht : Written t j)
    {q : List Char} (hq : q <+: member k t) (fuel : Nat) (acc : List (List Char × Json)) :
    parseMembers fuel acc q = none := by
  obtain _ | F := fuel
  · rfl
  rcases prefix_append_cases hq with h1 | ⟨q1, rfl, h1⟩
  · rcases List.prefix_cons_iff.mp h1 with rfl | ⟨q2, rfl, h2⟩
    · exact parseMembers_nil _ acc
    · simp only [parseMembers, skipWs_cons (c := '"') rfl,
        parseString_of_plain fun c hc => hk c (h2.subset hc), Option.none_bind]
  rcases List.prefix_cons_iff.mp h1 with rfl | ⟨q2, rfl, h2⟩
  · simp only [List.append_nil, List.cons_append, parseMembers, skipWs_cons (c := '"') rfl,
      parseString_of_plain hk, Option.none_bind]
  rcases List.prefix_cons_iff.mp h2 with rfl | ⟨q3, rfl, h3⟩
  · simp only [List.cons_append, parseMembers, skipWs_cons (c := '"') rfl, parseString_plain hk,
      Option.some_bind]
    rfl
  rw [List.cons_append, parseMembers_key hk]
  cases hv : parseValue F q3 with
  | none => rfl
  | some x =>
    obtain ⟨v, r⟩ := x
    obtain rfl : r = [] := ht.cut q3 h3 F _ hv
    rfl

/-- A member followed by `,` or `}`: the value is the written one, and the parser goes on
to the next member or closes the object. -/
theorem parseMembers_member_some {k t : List Char} {j : Json} (hk : Plain k) (ht : Written t j)
    {c : Char} (hc : Delim c) {F : Nat} {acc : List (List Char × Json)} {rest : List Char}
    {x : Json × List Char} (h : parseMembers (F + 1) acc (member k t ++ c :: rest) = some x) :
    (c = ',' ∧ parseMembers F (acc ++ [(k, j)]) rest = some x) ∨
      (c = '}' ∧ x = (.object (acc ++ [(k, j)]), rest)) := by
  simp only [member, List.cons_append, List.append_assoc] at h
  rw [parseMembers_key hk] at h
  obtain ⟨p, hp, h⟩ := Option.bind_eq_some.mp h
  obtain rfl := ht.delim F hc rest p hp
  rcases hc with rfl | rfl
  · exact .inl ⟨rfl, h⟩
  · exact .inr ⟨rfl, (Option.some.inj h).symm⟩

theorem joinComma_map_cons_cons {β : Type} (f : β → List Char) (y z : β) (zs : List β) (r : List Char) :
    joinComma ((y :: z :: zs).map f) ++ r = f y ++ ',' :: (joinComma ((z :: zs).map f) ++ r) := by
  simp only [List.map_cons, joinComma, List.append_assoc, List.cons_append]

/-- **Written members read back as written, whatever the fuel**: a read of `k₁:t₁,…}` that
succeeds is the object of the written members. -/
theorem parseMembers_joined_any (L : List (List Char × List Char × Json))
    (hL : ∀ x ∈ L, Plain x.1 ∧ Written x.2.1 x.2.2) (hne : L ≠ []) :
    ∀ (acc : List (List Char × Json)) (F : Nat) (rest : List Char) (x : Json × List Char),
      parseMembers F acc (joinComma (L.map fun x => member x.1 x.2.1) ++ '}' :: rest) = some x →
        x = (.object (acc ++ L.map fun x => (x.1, x.2.2)), rest) := by
  induction L with
  | nil => exact absurd rfl hne
  | cons y ys ih =>
    intro acc F rest x h
    obtain ⟨hk, ht⟩ := hL y (.head _)
    obtain _ | F := F
    · cases h
    cases ys with
    | nil =>
      rcases parseMembers_member_some hk ht (.inr rfl) h with ⟨h1, -⟩ | ⟨-, rfl⟩
      · exact absurd h1 (by decide)
      · simp
    | cons z zs =>
      rw [joinComma_map_cons_cons] at h
      rcases parseMembers_member_some hk ht (.inl rfl) h with ⟨-, h⟩ | ⟨h1, -⟩
      · rw [ih (fun w hw => hL w (.tail _ hw)) (List.cons_ne_nil _ _) _ F rest x h]
        simp
      · exact absurd h1 (by decide)

/-- A prefix of a member and what follows it: either it stops inside the member, and the
member list stays open, or it holds the whole member and the character after it. -/
theorem parseMembers_member_prefix {k t : List Char} {j : Json} (hk : Plain k) (ht : Written t j)
    {c : Char} {tail q : List Char} (hq : q <+: member k t ++ c :: tail) (fuel : Nat)
    (acc : List (List Char × Json)) :
    parseMembers fuel acc q = none ∨ ∃ q', q = member k t ++ c :: q' ∧ q' <+: tail := by
  rcases prefix_append_cases hq with h1 | ⟨q1, rfl, h1⟩
  · exact .inl (parseMembers_member_cut hk ht h1 fuel acc)
  rcases List.prefix_cons_iff.mp h1 with rfl | ⟨q2, rfl, h2⟩
  · rw [List.append_nil]
    exact .inl (parseMembers_member_cut hk ht (List.prefix_refl _) fuel acc)
  · exact .inr ⟨q2, rfl, h2⟩

/-- **No proper prefix of written members closes the object**, whatever the fuel. -/
theorem parseMembers_joined_cut (L : List (List Char × List Char × Json))
    (hL : ∀ x ∈ L, Plain x.1 ∧ Written x.2.1 x.2.2) :
    ∀ (acc : List (List Char × Json)) (F : Nat) (q : List Char),
      q <+: joinComma (L.map fun x => member x.1 x.2.1) ++ ['}'] →
      q ≠ joinComma (L.map fun x => member x.1 x.2.1) ++ ['}'] → parseMembers F acc q = none := by
  induction L with
  | nil =>
    intro acc F q hq hne
    rcases List.prefix_cons_iff.mp hq with rfl | ⟨q', rfl, hq'⟩
    · exact parseMembers_nil F acc
    · exact absurd (by rw [List.prefix_nil.mp hq']; rfl) hne
  | cons y ys ih =>
    intro acc F q hq hne
    obtain ⟨hk, ht⟩ := hL y (.head _)
    cases ys with
    | nil =>
      rcases parseMembers_member_prefix hk ht hq F acc with h | ⟨q2, rfl, h2⟩
      · exact h
      · exact absurd (by rw [List.prefix_nil.mp h2]; rfl) hne
    | cons z zs =>
      rw [joinComma_map_cons_cons] at hq hne
      rcases parseMembers_member_prefix hk ht hq F acc with h | ⟨q2, rfl, h2⟩
      · exact h
      obtain _ | F := F
      · rfl
      cases hx : parseMembers (F + 1) acc (member y.1 y.2.1 ++ ',' :: q2) with
      | none => rfl
      | some x =>
        rcases parseMembers_member_some hk ht (.inl rfl) hx with ⟨-, h⟩ | ⟨h1, -⟩
        · rw [ih (fun w hw => hL w (.tail _ hw)) _ F q2 h2 (fun e => hne (by rw [e]))] at h
          cases h
        · exact absurd h1 (by decide)

theorem parseValue_open_nil (F : Nat) : parseValue (F + 1) ['{'] = none := by
  cases F <;> rfl

/-- **A written object reads back as written, whatever the fuel**, and stops at its closing
brace whatever follows. -/
theorem parseValue_objectText_any (L : List (List Char × List Char × Json))
    (hL : ∀ x ∈ L, Plain x.1 ∧ Written x.2.1 x.2.2) (fuel : Nat) (rest : List Char)
    (x : Json × List Char)
    (h : parseValue fuel (objectText (L.map fun x => (x.1, x.2.1)) ++ rest) = some x) :
    x = (.object (L.map fun x => (x.1, x.2.2)), rest) := by
  obtain _ | F := fuel
  · cases h
  rw [objectText_append] at h
  cases L with
  | nil => exact (Option.some.inj h).symm
  | cons y ys =>
    obtain ⟨s, hs⟩ := joinComma_member_cons y.1 y.2.1 (ys.map fun x => member x.1 x.2.1) ('}' :: rest)
    rw [List.map_cons] at h ⊢
    rw [hs, parseValue_open, ← hs] at h
    exact parseMembers_joined_any (y :: ys) hL (List.cons_ne_nil _ _) [] F rest x h

/-- **An object cut short never reads**: the parser rejects every proper prefix of a
written object, whatever the fuel. -/
theorem parseValue_objectText_cut (L : List (List Char × List Char × Json))
    (hL : ∀ x ∈ L, Plain x.1 ∧ Written x.2.1 x.2.2) {p : List Char}
    (hp : p <+: objectText (L.map fun x => (x.1, x.2.1)))
    (hne : p ≠ objectText (L.map fun x => (x.1, x.2.1))) (fuel : Nat) : parseValue fuel p = none := by
  obtain _ | F := fuel
  · rfl
  have htext := objectText_append L []
  rw [List.append_nil] at htext
  rw [htext] at hp hne
  rcases List.prefix_cons_iff.mp hp with rfl | ⟨q, rfl, hq⟩
  · exact parseValue_nil _
  have hcut := parseMembers_joined_cut L hL [] F q hq (fun e => hne (by rw [e]))
  cases L with
  | nil =>
    rcases List.prefix_cons_iff.mp hq with rfl | ⟨q', rfl, hq'⟩
    · exact parseValue_open_nil F
    · exact absurd (by rw [List.prefix_nil.mp hq']; rfl) hne
  | cons y ys =>
    obtain ⟨s, hs⟩ := joinComma_member_cons y.1 y.2.1 (ys.map fun x => member x.1 x.2.1) ['}']
    rw [List.map_cons, hs] at hq
    rcases List.prefix_cons_iff.mp hq with rfl | ⟨q', rfl, -⟩
    · exact parseValue_open_nil F
    · rw [parseValue_open]
      exact hcut

theorem written_objectText (L : List (List Char × List Char × Json))
    (hL : ∀ x ∈ L, Plain x.1 ∧ Written x.2.1 x.2.2) :
    Written (objectText (L.map fun x => (x.1, x.2.1))) (.object (L.map fun x => (x.1, x.2.2))) where
  delim fuel _ _ rest x h := parseValue_objectText_any L hL fuel _ x h
  cut p hp fuel x h := by
    by_cases hfull : p = objectText (L.map fun x => (x.1, x.2.1))
    · subst hfull
      rw [parseValue_objectText_any L hL fuel [] x (by rwa [List.append_nil])]
    · rw [parseValue_objectText_cut L hL hp hfull] at h
      cases h

theorem scanInt_digits_cut {d : Nat} {ds : List Nat} (hd : d < 10) (hds : ∀ e ∈ ds, e < 10)
    (h0 : d = 0 → ds = []) {q : List Char} (hq : q <+: (d :: ds).map digitChar)
    {y : List Char × List Char} (h : scanInt q = some y) : y.2 = [] := by
  rw [List.map_cons] at hq
  rcases List.prefix_cons_iff.mp hq with rfl | ⟨q', rfl, hq'⟩
  · cases h
  rcases Nat.eq_zero_or_pos d with rfl | hpos
  · obtain rfl := h0 rfl
    obtain rfl := List.prefix_nil.mp hq'
    have h0 : scanInt [digitChar 0] = some (['0'], []) := rfl
    rw [h0] at h
    cases h
    rfl
  · rw [scanInt_nonzero d hpos hd] at h
    cases h
    exact List.dropWhile_eq_nil_iff.mpr fun c hc => by
      obtain ⟨e, he, rfl⟩ := List.mem_map.mp (hq'.subset hc)
      exact (digitChar_plain e (hds e he)).2.2.2

/-- A number whose integer part runs to the end of the text runs to the end. -/
theorem number_tail_nil (g : List Char → List Char → List Char → List Char) {q : List Char}
    (hq : ∀ y, scanInt q = some y → y.2 = []) {y : Json × List Char}
    (h : (((scanInt q).bind fun (i, s) => (scanFrac s).bind fun (f, s) =>
      (scanExp s).map fun (e, s) => (g i f e, s)).map fun p => (Json.number p.1, p.2)) = some y) :
    y.2 = [] := by
  obtain ⟨r, hr, rfl⟩ := Option.map_eq_some'.mp h
  obtain ⟨⟨i, s⟩, hi, hr⟩ := Option.bind_eq_some.mp hr
  obtain rfl : s = [] := hq _ hi
  rw [← Option.some.inj hr]

theorem written_formatInt (x : Int) : Written (formatInt x) (.number (formatInt x)) where
  delim fuel c hc rest y h := by
    obtain _ | F := fuel
    · cases h
    rw [parseValue_formatInt_scan, scanNumber_formatInt x hc rest] at h
    exact (Option.some.inj h).symm
  cut p hp fuel y h := by
    obtain _ | F := fuel
    · cases h
    obtain ⟨d, ds, hdd, h0⟩ := decimalDigits_head x.natAbs
    have hR := (decimalDigits_spec x.natAbs).2.1
    rw [hdd] at hR
    have hd : d < 10 := hR d (.head _)
    have hcut := @scanInt_digits_cut d ds hd (fun e he => hR e (.tail _ he)) h0
    unfold formatInt natText at hp
    rw [hdd] at hp
    split at hp
    · rcases List.prefix_cons_iff.mp hp with rfl | ⟨q, rfl, hq⟩
      · rw [parseValue_nil] at h
        cases h
      exact number_tail_nil (fun i f e => ['-'] ++ i ++ f ++ e) (fun _ => hcut hq) h
    · rw [List.map_cons] at hp
      rcases List.prefix_cons_iff.mp hp with rfl | ⟨q, rfl, hq⟩
      · rw [parseValue_nil] at h
        cases h
      rw [parseValue_digit d hd, scanNumber_digit d hd] at h
      exact number_tail_nil (fun i f e => i ++ f ++ e)
        (fun _ => hcut (by rw [List.map_cons]; exact List.prefix_cons_inj _ |>.mpr hq)) h

/-- **`checkValid` rejects every proper prefix of a written object.** -/
theorem parseJson_objectText_cut (L : List (List Char × List Char × Json))
    (hL : ∀ x ∈ L, Plain x.1 ∧ Written x.2.1 x.2.2) {p : List Char}
    (hp : p <+: objectText (L.map fun x => (x.1, x.2.1)))
    (hne : p ≠ objectText (L.map fun x => (x.1, x.2.1))) : parseJson p = none := by
  rw [parseJson, parseValue_objectText_cut L hL hp hne]

end Gogram.Telegram
