import BulkSync.Json
import Mathlib.Data.List.DropRight

namespace BulkSync

namespace Json

def Spaces (cs : List Char) : Prop :=
  ∀ c ∈ cs, isSpace c

def IsHexDigit (c : Char) : Prop :=
  ('0' ≤ c ∧ c ≤ '9') ∨ ('a' ≤ c ∧ c ≤ 'f') ∨ ('A' ≤ c ∧ c ≤ 'F')

/-- What may stand between the quotes of a string. -/
inductive StringText : List Char → Prop
  | nil : StringText []
  | plain {c cs} (hcontrol : 0x20 ≤ c.toNat) (hquote : c ≠ '"') (hescape : c ≠ '\\')
      (h : StringText cs) : StringText (c :: cs)
  | short {c cs} (hc : c ∈ ['"', '\\', '/', 'b', 'f', 'n', 'r', 't']) (h : StringText cs) :
      StringText ('\\' :: c :: cs)
  | hex {a b c d cs} (ha : IsHexDigit a) (hb : IsHexDigit b) (hc : IsHexDigit c)
      (hd : IsHexDigit d) (h : StringText cs) : StringText ('\\' :: 'u' :: a :: b :: c :: d :: cs)

/-- Decimal digits, one at least. -/
structure Digits (cs : List Char) : Prop where
  some : cs ≠ []
  all : ∀ c ∈ cs, isDigit c

inductive WholeText : List Char → Prop
  | zero : WholeText ['0']
  | digits {cs} (h : Digits cs) (hzero : cs.head? ≠ some '0') : WholeText cs

inductive FractionText : List Char → Prop
  | absent : FractionText []
  | present {cs} (h : Digits cs) : FractionText ('.' :: cs)

inductive ExponentText : List Char → Prop
  | absent : ExponentText []
  | present {e sign cs} (he : e = 'e' ∨ e = 'E') (hsign : sign ∈ [[], ['+'], ['-']])
      (h : Digits cs) : ExponentText (e :: (sign ++ cs))

inductive NumberText : List Char → Prop
  | intro {sign whole fraction exponent} (hsign : sign ∈ [[], ['-']]) (hw : WholeText whole)
      (hf : FractionText fraction) (he : ExponentText exponent) :
      NumberText (sign ++ whole ++ fraction ++ exponent)

mutual

/-- The characters write a value, with no white space around it. -/
inductive Written : List Char → Json → Prop
  | null : Written ['n', 'u', 'l', 'l'] .null
  | true : Written ['t', 'r', 'u', 'e'] (.bool Bool.true)
  | false : Written ['f', 'a', 'l', 's', 'e'] (.bool Bool.false)
  | number {cs} (h : NumberText cs) : Written cs (.number cs)
  | string {cs} (h : StringText cs) : Written ('"' :: cs ++ ['"']) (.string cs)
  | emptyArray {cs} (h : Spaces cs) : Written ('[' :: cs ++ [']']) (.array [])
  | array {cs items} (h : Items cs items) : Written ('[' :: cs ++ [']']) (.array items)
  | emptyObject {cs} (h : Spaces cs) : Written ('\x7b' :: cs ++ ['\x7d']) (.object [])
  | object {cs members} (h : Members cs members) :
      Written ('\x7b' :: cs ++ ['\x7d']) (.object members)

/-- The same with white space around it, or none. -/
inductive Spaced : List Char → Json → Prop
  | intro {before cs after v} (hbefore : Spaces before) (h : Written cs v)
      (hafter : Spaces after) : Spaced (before ++ cs ++ after) v

/-- The items of an array with commas between them. -/
inductive Items : List Char → List Json → Prop
  | last {cs v} (h : Spaced cs v) : Items cs [v]
  | next {cs v rest items} (h : Spaced cs v) (hrest : Items rest items) :
      Items (cs ++ ',' :: rest) (v :: items)

/-- A key and its value. -/
inductive Member : List Char → List Char × Json → Prop
  | intro {before key after cs v} (hbefore : Spaces before) (hkey : StringText key)
      (hafter : Spaces after) (h : Spaced cs v) :
      Member (before ++ '"' :: (key ++ '"' :: (after ++ ':' :: cs))) (key, v)

/-- The members of an object with commas between them. -/
inductive Members : List Char → List (List Char × Json) → Prop
  | last {cs m} (h : Member cs m) : Members cs [m]
  | next {cs m rest members} (h : Member cs m) (hrest : Members rest members) :
      Members (cs ++ ',' :: rest) (m :: members)

end

/-- The first character, if there is one. -/
def Begins (p : Char → Prop) (cs : List Char) : Prop :=
  ∀ c, cs.head? = some c → p c

/-- No number goes on with these characters. -/
def EndsNumber (rest : List Char) : Prop :=
  Begins (fun c => isDigit c = Bool.false ∧ c ≠ '.' ∧ c ≠ 'e' ∧ c ≠ 'E') rest

section Lexemes

variable {cs rest : List Char}

theorem skipSpace_spaces (h : Spaces cs) (rest : List Char) :
    skipSpace (cs ++ rest) = skipSpace rest :=
  List.dropWhile_append_of_pos h

theorem skipSpace_cons {c : Char} (h : isSpace c = false) (rest : List Char) :
    skipSpace (c :: rest) = c :: rest :=
  List.dropWhile_cons_of_neg (by simp [h])

theorem skipSpace_skipSpace (cs : List Char) : skipSpace (skipSpace cs) = skipSpace cs :=
  List.dropWhile_idempotent isSpace cs

theorem hexValue?_isSome {c : Char} (h : IsHexDigit c) : ∃ n, hexValue? c = some n := by
  unfold hexValue?
  by_cases hdigit : isDigit c
  · exact ⟨_, if_pos hdigit⟩
  · rw [if_neg hdigit]
    by_cases hlower : 'a' ≤ c ∧ c ≤ 'f'
    · exact ⟨_, if_pos hlower⟩
    · rw [if_neg hlower]
      have hupper : 'A' ≤ c ∧ c ≤ 'F' := by
        rcases h with h | h | h
        · exact absurd (by simp [isDigit, h]) hdigit
        · exact absurd h hlower
        · exact h
      exact ⟨_, if_pos hupper⟩

theorem hexQuad?_isSome {a b c d : Char} (ha : IsHexDigit a) (hb : IsHexDigit b)
    (hc : IsHexDigit c) (hd : IsHexDigit d) : ∃ found, hexQuad? [a, b, c, d] = some found := by
  obtain ⟨w, hw⟩ := hexValue?_isSome ha
  obtain ⟨x, hx⟩ := hexValue?_isSome hb
  obtain ⟨y, hy⟩ := hexValue?_isSome hc
  obtain ⟨z, hz⟩ := hexValue?_isSome hd
  refine ⟨(((w * 16 + x) * 16 + y) * 16 + z, []), ?_⟩
  simp only [hexQuad?, hw, hx, hy, hz]
  rfl

theorem scanString_plain {c : Char} (hcontrol : 0x20 ≤ c.toNat) (hquote : c ≠ '"')
    (hescape : c ≠ '\\') (seen rest : List Char) :
    scanString seen (c :: rest) = scanString (c :: seen) rest := by
  have hplain : ¬ (decide (c.toNat < 0x20) || c == '\\') = Bool.true := by
    simp [hescape, hcontrol]
  have hnot : ∀ tail, c :: rest ≠ '"' :: tail ∧ c :: rest ≠ '\\' :: tail := by
    intro tail
    exact ⟨fun h => hquote (List.cons.inj h).1, fun h => hescape (List.cons.inj h).1⟩
  rw [scanString.eq_def]
  split
  next h => cases h
  next tail h => exact absurd h (hnot tail).1
  next h => exact absurd h (hnot _).2
  next h => exact absurd h (hnot _).2
  next h =>
    cases h
    rw [if_neg hplain]

theorem scanString_short {c : Char} (hc : c ∈ ['"', '\\', '/', 'b', 'f', 'n', 'r', 't'])
    (seen rest : List Char) :
    scanString seen ('\\' :: c :: rest) = scanString (c :: '\\' :: seen) rest := by
  simp only [List.mem_cons, List.not_mem_nil, or_false] at hc
  rcases hc with rfl | rfl | rfl | rfl | rfl | rfl | rfl | rfl <;> simp [scanString, shortEscape?]

/-- A string is read up to its closing quote. -/
theorem scanString_text (h : StringText cs) (seen rest : List Char) :
    scanString seen (cs ++ '"' :: rest) = some (seen.reverse ++ cs, rest) := by
  induction h generalizing seen with
  | nil => simp [scanString]
  | plain hcontrol hquote hescape _ ih =>
    rw [List.cons_append, scanString_plain hcontrol hquote hescape, ih]
    simp
  | short hc _ ih =>
    rw [List.cons_append, List.cons_append, scanString_short hc, ih]
    simp
  | hex ha hb hc hd _ ih =>
    obtain ⟨found, hfound⟩ := hexQuad?_isSome ha hb hc hd
    simp only [List.cons_append, scanString, hfound, ih]
    simp

theorem begins_nil (p : Char → Prop) : Begins p [] := by
  intro c h
  cases h

theorem begins_cons {p : Char → Prop} {c : Char} (h : p c) (rest : List Char) :
    Begins p (c :: rest) := by
  intro d hd
  cases hd
  exact h

theorem Begins.append {p : Char → Prop} (h : Begins p cs) (hrest : Begins p rest) :
    Begins p (cs ++ rest) := by
  cases cs with
  | nil => exact hrest
  | cons c tail => exact begins_cons (h c rfl) _

theorem Begins.mono {p q : Char → Prop} (h : Begins p cs) (hpq : ∀ c, p c → q c) : Begins q cs :=
  fun c hc => hpq c (h c hc)

/-- Digits are read up to the first character that is none. -/
theorem scanDigits_text (h : Digits cs) (hrest : Begins (fun c => isDigit c = Bool.false) rest) :
    scanDigits (cs ++ rest) = some (cs, rest) := by
  have hnone : rest.takeWhile isDigit = [] ∧ rest.dropWhile isDigit = rest := by
    cases rest with
    | nil => exact ⟨rfl, rfl⟩
    | cons c tail =>
      have hc := hrest c rfl
      exact ⟨List.takeWhile_cons_of_neg (by simp [hc]), List.dropWhile_cons_of_neg (by simp [hc])⟩
  obtain ⟨first, others, hcons⟩ := List.exists_cons_of_ne_nil h.some
  unfold scanDigits
  rw [List.takeWhile_append_of_pos h.all, List.dropWhile_append_of_pos h.all, hnone.1, hnone.2,
    List.append_nil, hcons]

theorem WholeText.allDigits (h : WholeText cs) : Digits cs := by
  cases h with
  | zero => exact ⟨List.cons_ne_nil _ _, List.forall_mem_singleton.mpr rfl⟩
  | digits h _ => exact h

theorem scanInteger_text (h : WholeText cs)
    (hrest : Begins (fun c => isDigit c = Bool.false) rest) :
    scanInteger (cs ++ rest) = some (cs, rest) := by
  unfold scanInteger
  rw [scanDigits_text h.allDigits hrest]
  dsimp only [bind, Option.bind]
  split
  next second others =>
    cases h with
    | digits _ hzero => exact absurd rfl hzero
  next => rfl

theorem scanFraction_text (h : FractionText cs)
    (hrest : Begins (fun c => isDigit c = Bool.false ∧ c ≠ '.') rest) :
    scanFraction (cs ++ rest) = some (cs, rest) := by
  cases h with
  | absent =>
    rw [List.nil_append, scanFraction.eq_def]
    split
    next tail => exact absurd rfl (hrest '.' rfl).2
    next => rfl
  | present h =>
    rw [List.cons_append, scanFraction, scanDigits_text h (hrest.mono fun c hc => hc.1)]
    rfl

theorem scanExponent_text (h : ExponentText cs) (hrest : EndsNumber rest) :
    scanExponent (cs ++ rest) = some (cs, rest) := by
  cases h with
  | absent =>
    cases rest with
    | nil => rfl
    | cons c tail =>
      have hc := hrest c rfl
      have hmark : ¬ (c = 'e' ∨ c = 'E') := not_or.mpr ⟨hc.2.2.1, hc.2.2.2⟩
      exact if_neg hmark
  | @present e sign digits he hsign h =>
    have hscan := scanDigits_text h (hrest.mono fun c hc => hc.1)
    simp only [List.mem_cons, List.not_mem_nil, or_false] at hsign
    rw [List.cons_append, List.append_assoc, scanExponent.eq_def]
    dsimp only
    rw [if_pos he]
    rcases hsign with rfl | rfl | rfl
    · obtain ⟨first, others, rfl⟩ := List.exists_cons_of_ne_nil h.some
      have hfirst : isDigit first = Bool.true := h.all first (by simp)
      rw [List.nil_append]
      split
      next tail htail =>
        rw [(List.cons.inj htail).1] at hfirst
        exact absurd hfirst (by decide)
      next tail htail =>
        rw [(List.cons.inj htail).1] at hfirst
        exact absurd hfirst (by decide)
      next =>
        rw [hscan]
        rfl
    · change (scanDigits (digits ++ rest)).map _ = _
      rw [hscan]
      rfl
    · change (scanDigits (digits ++ rest)).map _ = _
      rw [hscan]
      rfl

/-- What stands after the digits of a number does not go on with them. -/
theorem FractionText.begins (h : FractionText cs)
    (hrest : Begins (fun c => isDigit c = Bool.false) rest) :
    Begins (fun c => isDigit c = Bool.false) (cs ++ rest) := by
  cases h with
  | absent => exact hrest
  | present h => exact begins_cons (by decide) _

theorem ExponentText.begins (h : ExponentText cs)
    (hrest : Begins (fun c => isDigit c = Bool.false ∧ c ≠ '.') rest) :
    Begins (fun c => isDigit c = Bool.false ∧ c ≠ '.') (cs ++ rest) := by
  cases h with
  | absent => exact hrest
  | present he h =>
    apply begins_cons
    rcases he with rfl | rfl <;> decide

/-- A number is read as a whole where no number could go on. -/
theorem scanNumber_text (h : NumberText cs) (hrest : EndsNumber rest) :
    scanNumber (cs ++ rest) = some (cs, rest) := by
  obtain @⟨sign, whole, fraction, exponent, hsign, hw, hf, he⟩ := h
  have hafter := he.begins (hrest.mono fun c hc => ⟨hc.1, hc.2.1⟩)
  have hinteger := scanInteger_text hw (hf.begins (hafter.mono fun c hc => hc.1))
  have hfraction := scanFraction_text hf hafter
  have hexponent := scanExponent_text he hrest
  simp only [List.append_assoc]
  simp only [List.mem_cons, List.not_mem_nil, or_false] at hsign
  rcases hsign with rfl | rfl
  · rw [List.nil_append]
    unfold scanNumber
    split
    next tail htail =>
      obtain ⟨first, others, rfl⟩ := List.exists_cons_of_ne_nil hw.allDigits.some
      have hfirst : isDigit first = Bool.true := hw.allDigits.all first (by simp)
      rw [(List.cons.inj htail).1] at hfirst
      exact absurd hfirst (by decide)
    next =>
      simp only [List.length_nil, List.drop_zero, hinteger, hfraction, hexponent, bind,
        Option.bind, pure, List.nil_append, List.append_assoc]
  · change (scanInteger (whole ++ (fraction ++ (exponent ++ rest)))).bind _ = _
    rw [hinteger]
    simp only [hfraction, hexponent, bind, Option.bind, pure, List.append_assoc,
      List.cons_append, List.nil_append]

theorem not_isSpace_of_isDigit {c : Char} (h : isDigit c) : isSpace c = Bool.false := by
  by_contra hspace
  simp only [isSpace, Bool.not_eq_false, Bool.or_eq_true, beq_iff_eq] at hspace
  rcases hspace with ((rfl | rfl) | rfl) | rfl <;> exact absurd h (by decide)

/-- White space ends a number, as everything does that may follow a value. -/
theorem EndsNumber.spaces (h : Spaces cs) (hrest : EndsNumber rest) : EndsNumber (cs ++ rest) := by
  apply Begins.append _ hrest
  intro c hc
  have hspace := h c (List.mem_of_mem_head? hc)
  simp only [isSpace, Bool.or_eq_true, beq_iff_eq] at hspace
  rcases hspace with ((rfl | rfl) | rfl) | rfl <;> decide

theorem NumberText.head (h : NumberText cs) : ∃ c tail, cs = c :: tail ∧ (c = '-' ∨ isDigit c) := by
  obtain @⟨sign, whole, fraction, exponent, hsign, hw, hf, he⟩ := h
  simp only [List.mem_cons, List.not_mem_nil, or_false] at hsign
  rcases hsign with rfl | rfl
  · obtain ⟨first, others, rfl⟩ := List.exists_cons_of_ne_nil hw.allDigits.some
    exact ⟨first, _, rfl, .inr (hw.allDigits.all first (by simp))⟩
  · exact ⟨'-', _, rfl, .inl rfl⟩

end Lexemes

section Values

variable {fuel : Nat} {cs rest : List Char}

theorem Written.head {v : Json} (h : Written cs v) :
    ∃ c tail, cs = c :: tail ∧ isSpace c = Bool.false ∧ c ≠ ']' := by
  cases h with
  | number h =>
    obtain ⟨c, tail, hcs, hc⟩ := h.head
    refine ⟨c, tail, hcs, ?_⟩
    rcases hc with rfl | hc
    · decide
    · exact ⟨not_isSpace_of_isDigit hc, fun h => absurd (h ▸ hc) (by decide)⟩
  | _ => exact ⟨_, _, rfl, by decide, by decide⟩

theorem Spaced.head {v : Json} (h : Spaced cs v) (rest : List Char) :
    ∃ c tail, skipSpace (cs ++ rest) = c :: tail ∧ c ≠ ']' := by
  obtain @⟨before, written, after, _, hbefore, h, _⟩ := h
  obtain ⟨c, tail, rfl, hspace, hc⟩ := h.head
  rw [List.append_assoc, List.append_assoc, skipSpace_spaces hbefore, List.cons_append,
    skipSpace_cons hspace]
  exact ⟨c, _, rfl, hc⟩

theorem Items.head {vs : List Json} (h : Items cs vs) (rest : List Char) :
    ∃ c tail, skipSpace (cs ++ rest) = c :: tail ∧ c ≠ ']' := by
  cases h with
  | last h => exact h.head rest
  | next h _ =>
    rw [List.append_assoc]
    exact h.head _

theorem Member.head {m : List Char × Json} (h : Member cs m) (rest : List Char) :
    ∃ tail, skipSpace (cs ++ rest) = '"' :: tail := by
  obtain ⟨hbefore, _, _, _⟩ := h
  rw [List.append_assoc, skipSpace_spaces hbefore, List.cons_append, skipSpace_cons (by decide)]
  exact ⟨_, rfl⟩

theorem Members.head {ms : List (List Char × Json)} (h : Members cs ms) (rest : List Char) :
    ∃ tail, skipSpace (cs ++ rest) = '"' :: tail := by
  cases h with
  | last h => exact h.head rest
  | next h _ =>
    rw [List.append_assoc]
    exact h.head _

theorem scanValue_skipSpace (fuel : Nat) (cs : List Char) :
    scanValue fuel (skipSpace cs) = scanValue fuel cs := by
  cases fuel with
  | zero => rfl
  | succ fuel => simp only [scanValue, skipSpace_skipSpace]

theorem scanItems_skipSpace (fuel : Nat) (cs : List Char) :
    scanItems fuel (skipSpace cs) = scanItems fuel cs := by
  cases fuel with
  | zero => rfl
  | succ fuel => simp only [scanItems, scanValue_skipSpace]

theorem scanMembers_skipSpace (fuel : Nat) (cs : List Char) :
    scanMembers fuel (skipSpace cs) = scanMembers fuel cs := by
  cases fuel with
  | zero => rfl
  | succ fuel => simp only [scanMembers, skipSpace_skipSpace]

theorem scanValue_string (hcs : skipSpace cs = '"' :: rest) :
    scanValue (fuel + 1) cs =
      (scanString [] rest).map fun (written, rest) => (.string written, rest) := by
  rw [scanValue, hcs]
  rfl

theorem scanValue_emptyArray {tail : List Char} (hcs : skipSpace cs = '[' :: rest)
    (hrest : skipSpace rest = ']' :: tail) :
    scanValue (fuel + 1) cs = some (.array [], tail) := by
  rw [scanValue, hcs]
  simp only [hrest]

theorem scanValue_array (hcs : skipSpace cs = '[' :: rest)
    (hrest : ∃ c tail, skipSpace rest = c :: tail ∧ c ≠ ']') :
    scanValue (fuel + 1) cs =
      (scanItems fuel rest).map fun (items, rest) => (.array items, rest) := by
  obtain ⟨c, tail, hrest, hc⟩ := hrest
  rw [scanValue, hcs, ← scanItems_skipSpace fuel rest]
  simp only [hrest]
  split
  next htail => exact absurd (List.cons.inj htail).1 hc
  next => rfl

theorem scanValue_emptyObject {tail : List Char} (hcs : skipSpace cs = '\x7b' :: rest)
    (hrest : skipSpace rest = '\x7d' :: tail) :
    scanValue (fuel + 1) cs = some (.object [], tail) := by
  rw [scanValue, hcs]
  simp only [hrest]

theorem scanValue_object (hcs : skipSpace cs = '\x7b' :: rest)
    (hrest : ∃ tail, skipSpace rest = '"' :: tail) :
    scanValue (fuel + 1) cs =
      (scanMembers fuel rest).map fun (members, rest) => (.object members, rest) := by
  obtain ⟨tail, hrest⟩ := hrest
  rw [scanValue, hcs, ← scanMembers_skipSpace fuel rest]
  simp only [hrest]
  rfl

theorem scanValue_number {c : Char} (hcs : skipSpace cs = c :: rest) (hc : c = '-' ∨ isDigit c) :
    scanValue (fuel + 1) cs =
      (scanNumber (c :: rest)).map fun (written, rest) => (.number written, rest) := by
  rw [scanValue, hcs]
  split
  case h_7 => rfl
  all_goals
    next h =>
      rw [(List.cons.inj h).1] at hc
      exact absurd hc (by decide)

/-- The text of a value is read up to the white space after it, with that much fuel. -/
def ReadsValues (fuel : Nat) : Prop :=
  ∀ {cs v rest}, Spaced cs v → 2 * cs.length ≤ fuel → EndsNumber rest →
    ∃ after, Spaces after ∧ scanValue fuel (cs ++ rest) = some (v, after ++ rest)

def ReadsItems (fuel : Nat) : Prop :=
  ∀ {cs vs rest}, Items cs vs → 2 * cs.length < fuel →
    scanItems fuel (cs ++ ']' :: rest) = some (vs, rest)

def ReadsMembers (fuel : Nat) : Prop :=
  ∀ {cs ms rest}, Members cs ms → 2 * cs.length < fuel →
    scanMembers fuel (cs ++ '\x7d' :: rest) = some (ms, rest)

theorem Written.skipSpace {v : Json} {before : List Char} (h : Written cs v)
    (hbefore : Spaces before) (rest : List Char) :
    Json.skipSpace (before ++ (cs ++ rest)) = cs ++ rest := by
  obtain ⟨c, tail, rfl, hspace, _⟩ := h.head
  rw [skipSpace_spaces hbefore, List.cons_append, skipSpace_cons hspace]

theorem readsValues_succ (hitems : ReadsItems fuel) (hmembers : ReadsMembers fuel) :
    ReadsValues (fuel + 1) := by
  intro text v rest h hfuel hrest
  obtain @⟨before, cs, after, _, hbefore, h, hafter⟩ := h
  refine ⟨after, hafter, ?_⟩
  have hskip := h.skipSpace hbefore (after ++ rest)
  simp only [List.length_append] at hfuel
  rw [List.append_assoc, List.append_assoc]
  cases h with
  | null => rw [scanValue, hskip]; rfl
  | true => rw [scanValue, hskip]; rfl
  | false => rw [scanValue, hskip]; rfl
  | number h =>
    obtain ⟨c, tail, hcs, hc⟩ := h.head
    have hscan := scanNumber_text h (hrest.spaces hafter)
    rw [hcs, List.cons_append] at hskip hscan
    rw [hcs, List.cons_append, scanValue_number hskip hc, hscan]
    rfl
  | string h =>
    rw [List.append_assoc, List.cons_append] at hskip ⊢
    rw [scanValue_string hskip]
    change (scanString [] (_ ++ '"' :: (after ++ rest))).map _ = _
    rw [scanString_text h]
    rfl
  | emptyArray h =>
    rw [List.append_assoc, List.cons_append] at hskip ⊢
    exact scanValue_emptyArray hskip (skipSpace_spaces h _)
  | array h =>
    rw [List.append_assoc, List.cons_append] at hskip ⊢
    rw [scanValue_array hskip (h.head _)]
    change (scanItems fuel (_ ++ ']' :: (after ++ rest))).map _ = _
    rw [hitems h (by simp only [List.length_append, List.length_cons] at hfuel; omega)]
    rfl
  | emptyObject h =>
    rw [List.append_assoc, List.cons_append] at hskip ⊢
    exact scanValue_emptyObject hskip (skipSpace_spaces h _)
  | object h =>
    rw [List.append_assoc, List.cons_append] at hskip ⊢
    rw [scanValue_object hskip (h.head _)]
    change (scanMembers fuel (_ ++ '\x7d' :: (after ++ rest))).map _ = _
    rw [hmembers h (by simp only [List.length_append, List.length_cons] at hfuel; omega)]
    rfl

theorem scanItems_item {v : Json} (hvalues : ReadsValues fuel) (h : Spaced cs v)
    (hfuel : 2 * cs.length ≤ fuel) (hrest : EndsNumber rest) :
    scanItems (fuel + 1) (cs ++ rest) =
      match Json.skipSpace rest with
      | ',' :: rest => do
        let (items, rest) ← scanItems fuel rest
        return (v :: items, rest)
      | ']' :: rest => return ([v], rest)
      | _ => none := by
  obtain ⟨after, hafter, hscan⟩ := hvalues h hfuel hrest
  have hstep := scanItems.eq_def (fuel + 1) (cs ++ rest)
  simp only [hscan, bind, Option.bind, skipSpace_spaces hafter] at hstep
  exact hstep

theorem readsItems_succ (hvalues : ReadsValues fuel) (hitems : ReadsItems fuel) :
    ReadsItems (fuel + 1) := by
  intro cs vs rest h hfuel
  cases h with
  | last h =>
    rw [scanItems_item hvalues h (by omega) (begins_cons (by decide) rest)]
    rfl
  | @next cs v others vs h hothers =>
    simp only [List.length_append, List.length_cons] at hfuel
    rw [List.append_assoc, List.cons_append,
      scanItems_item hvalues h (by omega) (begins_cons (by decide) _)]
    change (scanItems fuel (others ++ ']' :: rest)).bind _ = _
    rw [hitems hothers (by omega)]
    rfl

theorem scanMembers_member {m : List Char × Json} (hvalues : ReadsValues fuel) (h : Member cs m)
    (hfuel : 2 * cs.length ≤ fuel) (hrest : EndsNumber rest) :
    scanMembers (fuel + 1) (cs ++ rest) =
      match Json.skipSpace rest with
      | ',' :: rest => do
        let (members, rest) ← scanMembers fuel rest
        return (m :: members, rest)
      | '\x7d' :: rest => return ([m], rest)
      | _ => none := by
  obtain @⟨before, key, after, text, v, hbefore, hkey, hafter, h⟩ := h
  simp only [List.length_append, List.length_cons] at hfuel
  obtain ⟨spaces, hspaces, hscan⟩ := hvalues h (by omega) hrest
  have hopen : Json.skipSpace (before ++ '"' :: (key ++ '"' :: (after ++ ':' :: text)) ++ rest) =
      '"' :: (key ++ '"' :: (after ++ ':' :: (text ++ rest))) := by
    rw [List.append_assoc, skipSpace_spaces hbefore, List.cons_append, skipSpace_cons (by decide)]
    simp
  have hcolon : Json.skipSpace (after ++ ':' :: (text ++ rest)) = ':' :: (text ++ rest) := by
    rw [skipSpace_spaces hafter, skipSpace_cons (by decide)]
  have hstep := scanMembers.eq_def (fuel + 1)
    (before ++ '"' :: (key ++ '"' :: (after ++ ':' :: text)) ++ rest)
  simp only [hopen, scanString_text hkey, bind, Option.bind, hcolon, hscan,
    skipSpace_spaces hspaces, List.reverse_nil, List.nil_append] at hstep
  exact hstep

theorem readsMembers_succ (hvalues : ReadsValues fuel) (hmembers : ReadsMembers fuel) :
    ReadsMembers (fuel + 1) := by
  intro cs ms rest h hfuel
  cases h with
  | last h =>
    rw [scanMembers_member hvalues h (by omega) (begins_cons (by decide) rest)]
    rfl
  | @next cs m others ms h hothers =>
    simp only [List.length_append, List.length_cons] at hfuel
    rw [List.append_assoc, List.cons_append,
      scanMembers_member hvalues h (by omega) (begins_cons (by decide) _)]
    change (scanMembers fuel (others ++ '\x7d' :: rest)).bind _ = _
    rw [hmembers hothers (by omega)]
    rfl

/-- Every call uses up a character, and between two of them stands no other call. -/
theorem readsTexts (fuel : Nat) : ReadsValues fuel ∧ ReadsItems fuel ∧ ReadsMembers fuel := by
  induction fuel with
  | zero =>
    -- a value has a character, so no fuel at all is never enough
    refine ⟨?_, fun _ hfuel => absurd hfuel (Nat.not_lt_zero _),
      fun _ hfuel => absurd hfuel (Nat.not_lt_zero _)⟩
    intro text v rest h hfuel
    obtain @⟨before, cs, after, _, _, h, _⟩ := h
    obtain ⟨c, tail, rfl, _⟩ := h.head
    simp only [List.length_append, List.length_cons] at hfuel
    omega
  | succ fuel ih =>
    obtain ⟨hvalues, hitems, hmembers⟩ := ih
    exact ⟨readsValues_succ hitems hmembers, readsItems_succ hvalues hitems,
      readsMembers_succ hvalues hmembers⟩

/-- A text is read as the value it writes, however deep its arrays and objects are nested. -/
theorem parse_spaced {text : List Char} {v : Json} (h : Spaced text v) : parse text = some v := by
  obtain ⟨after, hafter, hscan⟩ :=
    (readsTexts (2 * text.length + 2)).1 h (by omega) (begins_nil _)
  have hend : Json.skipSpace (after ++ []) = [] := skipSpace_spaces hafter []
  rw [List.append_nil] at hscan
  unfold parse
  simp only [hscan, hend, List.isEmpty_nil, if_true]

end Values

section Writing

variable {cs key : List Char} {v : Json}

/-- A character that stands for itself in a string. -/
def isPlain (c : Char) : Bool :=
  0x20 ≤ c.toNat && c != '"' && c != '\\'

theorem StringText.of_plain (h : cs.all isPlain) : StringText cs := by
  induction cs with
  | nil => exact .nil
  | cons c cs ih =>
    obtain ⟨hc, hcs⟩ := Bool.and_eq_true_iff.mp h
    simp only [isPlain, Bool.and_eq_true, decide_eq_true_eq, bne_iff_ne] at hc
    exact .plain hc.1.1 hc.1.2 hc.2 (ih hcs)

theorem spaces_nil : Spaces [] := by
  intro c h
  cases h

theorem Written.spaced (h : Written cs v) : Spaced cs v := by
  have hspaced := Spaced.intro spaces_nil h spaces_nil
  rwa [List.nil_append, List.append_nil] at hspaced

theorem Member.compact (hkey : StringText key) (h : Written cs v) :
    Member ('"' :: (key ++ '"' :: ':' :: cs)) (key, v) :=
  Member.intro spaces_nil hkey spaces_nil h.spaced

end Writing

end Json

end BulkSync
