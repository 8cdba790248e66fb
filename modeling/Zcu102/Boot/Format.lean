import Mathlib.Data.List.TakeWhile
import Zcu102.Boot.Sd
import Zcu102.Sim.Numeral

/-!
# What `kprintf` prints

A format is a sequence of literal characters and conversions, each `%` with modifiers
and a character, and may end inside a conversion. Every string is the text of exactly
one format. `kprintf` goes through the text with three flags; between two tokens all
three are down, so it prints what the tokens print, one after the other: the log of a
run of `kprintf` holds just these characters.
-/

namespace Zcu102.Boot
set_option autoImplicit false
open Zcu102.Sim

/-! ## Formats -/

/-- The characters of a string before its NUL. -/
def cString (s : List Char) : List Char := s.takeWhile (· ≠ '\x00')

inductive Modifier where
  | l
  | h
  deriving DecidableEq, Repr

def Modifier.char : Modifier → Char
  | .l => 'l'
  | .h => 'h'

/-- Decided for the two modifiers. -/
instance (c : Char) : Decidable (∀ m : Modifier, c ≠ m.char) :=
  decidable_of_iff (c ≠ 'l' ∧ c ≠ 'h') ⟨fun ends m => by cases m; exacts [ends.1, ends.2], fun ends => ⟨ends .l, ends .h⟩⟩

/-- A literal character, or a conversion `%[lh]*c`. -/
inductive Token where
  | literal (c : Char) (nul : c ≠ '\x00') (plain : c ≠ '%')
  | conversion (modifiers : List Modifier) (c : Char) (nul : c ≠ '\x00') (ends : ∀ m : Modifier, c ≠ m.char)

def Token.text : Token → List Char
  | .literal c _ _ => [c]
  | .conversion modifiers c _ _ => '%' :: (modifiers.map Modifier.char ++ [c])

/-- Tokens, and the modifiers of a conversion that is not finished. -/
structure Format where
  tokens : List Token
  unfinished : Option (List Modifier)

/-- The text after the last token. -/
def unfinishedText : Option (List Modifier) → List Char
  | none => []
  | some modifiers => '%' :: modifiers.map Modifier.char

def Format.text (f : Format) : List Char := f.tokens.flatMap Token.text ++ unfinishedText f.unfinished

/-! ## Arguments and output -/

inductive ArgType where
  | ulong
  | uint
  | str
  | int
  deriving DecidableEq, Repr

def VaArg.type : VaArg → ArgType
  | .ulong _ => .ulong
  | .uint _ => .uint
  | .str _ => .str
  | .int _ => .int

/-- The type of the argument a token takes. -/
def Token.argument : Token → Option ArgType
  | .literal _ _ _ => none
  | .conversion modifiers c _ _ =>
    if c = 'x' then some (if .l ∈ modifiers then .ulong else .uint)
    else if c = 's' then some .str
    else if c = 'c' then some .int
    else none

def Format.arguments (f : Format) : List ArgType := f.tokens.filterMap Token.argument

/-- The lower-case hexadecimal digit of a value. -/
def lowerHex (v : ℕ) : Char :=
  ['0', '1', '2', '3', '4', '5', '6', '7', '8', '9', 'a', 'b', 'c', 'd', 'e', 'f'].getD v '0'

/-- The places of a `%x` that takes an `unsigned int`. -/
def hexPlaces (modifiers : List Modifier) : ℕ := if .h ∈ modifiers then 2 else 8

/-- What a token prints, with the arguments before and after it. -/
inductive Token.Renders : Token → List VaArg → List Char → List VaArg → Prop
  | literal {c : Char} {nul : c ≠ '\x00'} {plain : c ≠ '%'} (vl : List VaArg) :
      Renders (.literal c nul plain) vl [c] vl
  | long {modifiers : List Modifier} {nul : 'x' ≠ '\x00'} {ends : ∀ m : Modifier, 'x' ≠ m.char} {n : BitVec 64}
      {ds : List Char} (vl : List VaArg) : .l ∈ modifiers → Writes lowerHex 16 16 n.toNat ds →
      Renders (.conversion modifiers 'x' nul ends) (.ulong n :: vl) ds vl
  | hex {modifiers : List Modifier} {nul : 'x' ≠ '\x00'} {ends : ∀ m : Modifier, 'x' ≠ m.char} {n : BitVec 32}
      {ds : List Char} (vl : List VaArg) : .l ∉ modifiers → Writes lowerHex 16 (hexPlaces modifiers) n.toNat ds →
      Renders (.conversion modifiers 'x' nul ends) (.uint n :: vl) ds vl
  | str {modifiers : List Modifier} {nul : 's' ≠ '\x00'} {ends : ∀ m : Modifier, 's' ≠ m.char} (s : List Char)
      (vl : List VaArg) : Renders (.conversion modifiers 's' nul ends) (.str s :: vl) (cString s) vl
  | char {modifiers : List Modifier} {nul : 'c' ≠ '\x00'} {ends : ∀ m : Modifier, 'c' ≠ m.char} (n : BitVec 32)
      (vl : List VaArg) :
      Renders (.conversion modifiers 'c' nul ends) (.int n :: vl) [Char.ofNat (n.toNat % 256)] vl
  | other {modifiers : List Modifier} {c : Char} {nul : c ≠ '\x00'} {ends : ∀ m : Modifier, c ≠ m.char}
      (vl : List VaArg) : c ≠ 'x' → c ≠ 's' → c ≠ 'c' → Renders (.conversion modifiers c nul ends) vl [] vl

/-- What a list of tokens prints. -/
inductive Renders : List Token → List VaArg → List Char → List VaArg → Prop
  | nil (vl : List VaArg) : Renders [] vl [] vl
  | cons {t : Token} {ts : List Token} {vl vl' vl'' : List VaArg} {out out' : List Char} :
      t.Renders vl out vl' → Renders ts vl' out' vl'' → Renders (t :: ts) vl (out ++ out') vl''

/-- A format prints what its tokens print; an unfinished conversion prints nothing. -/
def Format.Prints (f : Format) (vl : List VaArg) (out : List Char) : Prop := ∃ vl', Renders f.tokens vl out vl'

/-! ## One format for each text -/

theorem Modifier.char_inj {m m' : Modifier} (same : m.char = m'.char) : m = m' := by
  cases m <;> cases m' <;> first | rfl | exact absurd same (by decide)

/-- The modifiers of a conversion end where its character stands. -/
theorem modifiers_inj {ms ms' : List Modifier} {c c' : Char} {s s' : List Char} (ends : ∀ m : Modifier, c ≠ m.char)
    (ends' : ∀ m : Modifier, c' ≠ m.char)
    (same : ms.map Modifier.char ++ c :: s = ms'.map Modifier.char ++ c' :: s') : ms = ms' ∧ c = c' ∧ s = s' := by
  induction ms generalizing ms' with
  | nil =>
    cases ms' with
    | nil =>
      obtain ⟨char, text⟩ := List.cons.inj same
      exact ⟨rfl, char, text⟩
    | cons m' ms' => exact absurd (List.head_eq_of_cons_eq same) (ends m')
  | cons m ms ih =>
    cases ms' with
    | nil => exact absurd (List.head_eq_of_cons_eq same).symm (ends' m)
    | cons m' ms' =>
      obtain ⟨first, text⟩ := List.cons.inj same
      obtain ⟨later, char, text⟩ := ih text
      exact ⟨by rw [Modifier.char_inj first, later], char, text⟩

theorem Token.text_inj {t t' : Token} {s s' : List Char} (same : t.text ++ s = t'.text ++ s') : t = t' ∧ s = s' := by
  cases t with
  | literal c nul plain =>
    cases t' with
    | literal c' nul' plain' =>
      obtain ⟨char, text⟩ := List.cons.inj same
      subst char
      exact ⟨rfl, text⟩
    | conversion ms' c' nul' ends' => exact absurd (List.head_eq_of_cons_eq same) plain
  | conversion ms c nul ends =>
    cases t' with
    | literal c' nul' plain' => exact absurd (List.head_eq_of_cons_eq same).symm plain'
    | conversion ms' c' nul' ends' =>
      rw [Token.text, Token.text, List.cons_append, List.cons_append, List.append_assoc, List.append_assoc] at same
      obtain ⟨modifiers, char, text⟩ := modifiers_inj ends ends' (List.tail_eq_of_cons_eq same)
      subst modifiers char
      exact ⟨rfl, text⟩

/-- A token is finished. -/
theorem Token.text_ne_unfinished (t : Token) (s : List Char) (u : Option (List Modifier)) :
    t.text ++ s ≠ unfinishedText u := by
  intro same
  cases u with
  | none => cases t <;> cases same
  | some ms' =>
    cases t with
    | literal c nul plain => exact plain (List.head_eq_of_cons_eq same)
    | conversion ms c nul ends =>
      have inside : c ∈ ms'.map Modifier.char := by
        rw [← List.tail_eq_of_cons_eq same]
        simp
      obtain ⟨m, -, char⟩ := List.mem_map.mp inside
      exact ends m char.symm

theorem unfinishedText_inj {u u' : Option (List Modifier)} (same : unfinishedText u = unfinishedText u') : u = u' := by
  cases u with
  | none =>
    cases u' with
    | none => rfl
    | some ms' => cases same
  | some ms =>
    cases u' with
    | none => cases same
    | some ms' =>
      have chars := List.tail_eq_of_cons_eq same
      rw [List.map_injective_iff.mpr (fun m m' => Modifier.char_inj) chars]

theorem tokens_inj {ts ts' : List Token} {u u' : Option (List Modifier)}
    (same : ts.flatMap Token.text ++ unfinishedText u = ts'.flatMap Token.text ++ unfinishedText u') :
    ts = ts' ∧ u = u' := by
  induction ts generalizing ts' with
  | nil =>
    cases ts' with
    | nil => exact ⟨rfl, unfinishedText_inj same⟩
    | cons t' ts' =>
      rw [List.flatMap_cons, List.append_assoc] at same
      exact absurd same.symm (t'.text_ne_unfinished _ u)
  | cons t ts ih =>
    cases ts' with
    | nil =>
      rw [List.flatMap_cons, List.append_assoc] at same
      exact absurd same (t.text_ne_unfinished _ u')
    | cons t' ts' =>
      rw [List.flatMap_cons, List.flatMap_cons, List.append_assoc, List.append_assoc] at same
      obtain ⟨first, text⟩ := Token.text_inj same
      obtain ⟨later, unfinished⟩ := ih text
      exact ⟨by rw [first, later], unfinished⟩

theorem Format.text_inj {f f' : Format} (same : f.text = f'.text) : f = f' := by
  cases f with
  | mk ts u =>
    cases f' with
    | mk ts' u' =>
      obtain ⟨rfl, rfl⟩ := tokens_inj same
      rfl

/-- Put a token before a format. -/
theorem exists_cons {f : Format} {s : List Char} (t : Token) (text : f.text = s) :
    ∃ f' : Format, f'.text = t.text ++ s := by
  refine ⟨⟨t :: f.tokens, f.unfinished⟩, ?_⟩
  rw [← text, Format.text, Format.text, List.flatMap_cons, List.append_assoc]

/-- Every text has a format, also after the beginning of a conversion. -/
theorem exists_format {s : List Char} (nul : '\x00' ∉ s) :
    (∃ f : Format, f.text = s) ∧ ∀ ms : List Modifier, ∃ f : Format, f.text = '%' :: (ms.map Modifier.char ++ s) := by
  induction s with
  | nil =>
    refine ⟨⟨⟨[], none⟩, rfl⟩, fun ms => ⟨⟨[], some ms⟩, ?_⟩⟩
    rw [List.append_nil]
    rfl
  | cons c s ih =>
    rw [List.mem_cons, not_or] at nul
    obtain ⟨⟨f, text⟩, pending⟩ := ih nul.2
    have char : c ≠ '\x00' := fun same => nul.1 same.symm
    constructor
    · by_cases percent : c = '%'
      · rw [percent]
        exact pending []
      · exact exists_cons (.literal c char percent) text
    · intro ms
      by_cases modifier : ∃ m : Modifier, c = m.char
      · obtain ⟨m, rfl⟩ := modifier
        obtain ⟨f', text'⟩ := pending (ms ++ [m])
        refine ⟨f', text'.trans ?_⟩
        rw [List.map_append, List.append_assoc]
        rfl
      · obtain ⟨f', text'⟩ := exists_cons (.conversion ms c char fun m same => modifier ⟨m, same⟩) text
        refine ⟨f', text'.trans ?_⟩
        rw [Token.text, List.cons_append, List.append_assoc, List.singleton_append]

theorem cString_cons (c : Char) (s : List Char) :
    cString (c :: s) = if c = '\x00' then [] else c :: cString s := by
  unfold cString
  rw [List.takeWhile_cons]
  by_cases nul : c = '\x00' <;> simp [nul]

theorem nul_not_mem_cString (s : List Char) : '\x00' ∉ cString s := by
  intro mem
  have kept := List.mem_takeWhile_imp mem
  exact absurd kept (by decide)

/-- A string is the text of exactly one format. -/
theorem existsUnique_format (s : List Char) : ∃! f : Format, f.text = cString s := by
  obtain ⟨f, text⟩ := (exists_format (nul_not_mem_cString s)).1
  exact ⟨f, text, fun f' text' => Format.text_inj (text'.trans text.symm)⟩

/-! ## The scan -/

theorem kputsLoop_eq (s : List Char) : kputsLoop s = cString s := by
  induction s with
  | nil => rfl
  | cons c s ih => rw [kputsLoop, cString_cons, ih]

/-- The scan stops at the NUL. -/
theorem kprintfLoop_cString (s : List Char) (isFormat isLong isChar : Bool) (vl : List VaArg) :
    kprintfLoop (cString s) isFormat isLong isChar vl = kprintfLoop s isFormat isLong isChar vl := by
  induction s generalizing isFormat isLong isChar vl with
  | nil => rfl
  | cons c s ih =>
    rw [cString_cons]
    by_cases nul : c = '\x00'
    · simp [nul, kprintfLoop]
    · simp only [nul, if_false, kprintfLoop, ih]

theorem kprintfLoop_literal {c : Char} (nul : c ≠ '\x00') (plain : c ≠ '%') (s : List Char) (vl : List VaArg) :
    kprintfLoop (c :: s) false false false vl = c :: kprintfLoop s false false false vl := by
  simp [kprintfLoop, nul, plain]

theorem kprintfLoop_percent (s : List Char) (vl : List VaArg) :
    kprintfLoop ('%' :: s) false false false vl = kprintfLoop s true false false vl := by
  simp [kprintfLoop]

/-- The modifiers set their flags. -/
theorem kprintfLoop_modifiers (ms : List Modifier) (s : List Char) (isLong isChar : Bool) (vl : List VaArg) :
    kprintfLoop (ms.map Modifier.char ++ s) true isLong isChar vl =
      kprintfLoop s true (isLong || decide (.l ∈ ms)) (isChar || decide (.h ∈ ms)) vl := by
  induction ms generalizing isLong isChar with
  | nil => simp
  | cons m ms ih =>
    cases m with
    | l => simp [kprintfLoop, Modifier.char, ih]
    | h => simp [kprintfLoop, Modifier.char, ih]

/-- A conversion, up to its character. -/
theorem kprintfLoop_conversion (ms : List Modifier) (s : List Char) (vl : List VaArg) :
    kprintfLoop ('%' :: (ms.map Modifier.char ++ s)) false false false vl =
      kprintfLoop s true (decide (.l ∈ ms)) (decide (.h ∈ ms)) vl := by
  rw [kprintfLoop_percent, kprintfLoop_modifiers, Bool.false_or, Bool.false_or]

theorem Token.scan_conversion (ms : List Modifier) (c : Char) (nul : c ≠ '\x00') (ends : ∀ m : Modifier, c ≠ m.char)
    (s : List Char) (vl : List VaArg) :
    kprintfLoop ((Token.conversion ms c nul ends).text ++ s) false false false vl =
      kprintfLoop (c :: s) true (decide (.l ∈ ms)) (decide (.h ∈ ms)) vl := by
  rw [Token.text, List.cons_append, List.append_assoc, kprintfLoop_conversion, List.singleton_append]

theorem lowerHex_eq : ∀ d < 16, hexDigit d = lowerHex d := by decide

/-- The digit loop writes its number. -/
theorem writes_hexDigits (n : BitVec 64) (k : ℕ) : Writes lowerHex 16 k n.toNat (hexDigits n k) := by
  induction k with
  | zero => exact writes_nil lowerHex 16 n.toNat
  | succ k ih =>
    have nibble : ((n >>> (4 * k)) &&& 0xF).toNat = n.toNat / 16 ^ k % 16 := by
      have power : (16 : ℕ) ^ k = 2 ^ (4 * k) := by rw [Nat.pow_mul]
      rw [BitVec.toNat_and, BitVec.toNat_ushiftRight, Nat.shiftRight_eq_div_pow, power]
      exact Nat.and_two_pow_sub_one_eq_mod _ 4
    rw [hexDigits, nibble, lowerHex_eq _ (Nat.mod_lt _ (by decide))]
    exact ih.cons (by decide)

theorem writes_hexDigits_uint (n : BitVec 32) (k : ℕ) :
    Writes lowerHex 16 k n.toNat (hexDigits (n.setWidth 64) k) := by
  have wide : (n.setWidth 64).toNat = n.toNat := BitVec.toNat_setWidth_of_le (by decide)
  rw [← wide]
  exact writes_hexDigits _ k

/-! ## Tokens, one after the other -/

/-- The scan prints what a token prints, and has its flags down again after it. -/
theorem Token.Renders.scan {t : Token} {vl vl' : List VaArg} {out : List Char} (renders : t.Renders vl out vl')
    (s : List Char) :
    kprintfLoop (t.text ++ s) false false false vl = out ++ kprintfLoop s false false false vl' := by
  cases renders with
  | @literal c nul plain => exact kprintfLoop_literal nul plain s vl
  | @long ms nul ends n ds vl long writes =>
    rw [writes.unique (by decide) (writes_hexDigits n 16), Token.scan_conversion]
    simp [kprintfLoop, long, vaUlong]
  | @hex ms nul ends n ds vl short writes =>
    rw [writes.unique (by decide) (writes_hexDigits_uint n _), Token.scan_conversion]
    simp [kprintfLoop, short, vaUint, hexPlaces]
  | str str vl =>
    rw [Token.scan_conversion, ← kputsLoop_eq]
    simp [kprintfLoop, vaStr]
  | char n vl =>
    rw [Token.scan_conversion]
    simp [kprintfLoop, vaInt]
  | @other ms c nul ends vl hex str char =>
    have l : c ≠ 'l' := ends .l
    have h : c ≠ 'h' := ends .h
    rw [Token.scan_conversion]
    simp [kprintfLoop, nul, l, h, hex, str, char]

theorem Renders.scan {ts : List Token} {vl vl' : List VaArg} {out : List Char} (renders : Renders ts vl out vl')
    (s : List Char) :
    kprintfLoop (ts.flatMap Token.text ++ s) false false false vl = out ++ kprintfLoop s false false false vl' := by
  induction renders with
  | nil vl => rfl
  | cons first later ih => rw [List.flatMap_cons, List.append_assoc, first.scan, ih, List.append_assoc]

/-- An unfinished conversion prints nothing. -/
theorem kprintfLoop_unfinished (u : Option (List Modifier)) (vl : List VaArg) :
    kprintfLoop (unfinishedText u) false false false vl = [] := by
  cases u with
  | none => rfl
  | some ms =>
    have pending := kprintfLoop_conversion ms [] vl
    rwa [List.append_nil, kprintfLoop] at pending

/-- The first of the arguments has the first of the types. -/
theorem exists_argument {type : ArgType} {types : List ArgType} {vl : List VaArg}
    (matching : type :: types <+: vl.map VaArg.type) :
    ∃ a vl', vl = a :: vl' ∧ a.type = type ∧ types <+: vl'.map VaArg.type := by
  cases vl with
  | nil => cases List.prefix_nil.mp matching
  | cons a vl =>
    obtain ⟨first, later⟩ := List.cons_prefix_cons.mp matching
    exact ⟨a, vl, rfl, first.symm, later⟩

theorem Token.exists_renders (t : Token) {types : List ArgType} {vl : List VaArg}
    (matching : t.argument.toList ++ types <+: vl.map VaArg.type) :
    ∃ out vl', t.Renders vl out vl' ∧ types <+: vl'.map VaArg.type := by
  cases t with
  | literal c nul plain => exact ⟨_, _, .literal vl, matching⟩
  | conversion ms c nul ends =>
    rw [Token.argument] at matching
    by_cases hex : c = 'x'
    · subst hex
      by_cases long : .l ∈ ms
      · rw [if_pos rfl, if_pos long] at matching
        obtain ⟨a, vl', rfl, type, later⟩ := exists_argument matching
        cases a with
        | ulong n => exact ⟨_, _, .long vl' long (writes_hexDigits n 16), later⟩
        | _ => cases type
      · rw [if_pos rfl, if_neg long] at matching
        obtain ⟨a, vl', rfl, type, later⟩ := exists_argument matching
        cases a with
        | uint n => exact ⟨_, _, .hex vl' long (writes_hexDigits_uint n (hexPlaces ms)), later⟩
        | _ => cases type
    · by_cases str : c = 's'
      · subst str
        rw [if_neg hex, if_pos rfl] at matching
        obtain ⟨a, vl', rfl, type, later⟩ := exists_argument matching
        cases a with
        | str s => exact ⟨_, _, .str s vl', later⟩
        | _ => cases type
      · by_cases char : c = 'c'
        · subst char
          rw [if_neg hex, if_neg str, if_pos rfl] at matching
          obtain ⟨a, vl', rfl, type, later⟩ := exists_argument matching
          cases a with
          | int n => exact ⟨_, _, .char n vl', later⟩
          | _ => cases type
        · rw [if_neg hex, if_neg str, if_neg char] at matching
          exact ⟨_, _, .other vl hex str char, matching⟩

theorem arguments_cons (t : Token) (ts : List Token) :
    (t :: ts).filterMap Token.argument = t.argument.toList ++ ts.filterMap Token.argument := by
  cases type : t.argument with
  | none => rw [List.filterMap_cons_none type, Option.toList_none, List.nil_append]
  | some type' => rw [List.filterMap_cons_some type, Option.toList_some, List.singleton_append]

theorem exists_renders (ts : List Token) {vl : List VaArg}
    (matching : ts.filterMap Token.argument <+: vl.map VaArg.type) : ∃ out vl', Renders ts vl out vl' := by
  induction ts generalizing vl with
  | nil => exact ⟨_, _, .nil vl⟩
  | cons t ts ih =>
    rw [arguments_cons] at matching
    obtain ⟨out, vl', first, later⟩ := t.exists_renders matching
    obtain ⟨out', vl'', renders⟩ := ih later
    exact ⟨_, _, .cons first renders⟩

theorem Format.Prints.chars {f : Format} {fmt : String} {vl : List VaArg} {out : List Char} (prints : f.Prints vl out)
    (text : f.text = cString fmt.toList) : kprintfChars fmt vl = out := by
  obtain ⟨vl', renders⟩ := prints
  rw [kprintfChars, ← kprintfLoop_cString, ← text, Format.text, renders.scan, kprintfLoop_unfinished, List.append_nil]

/-- A run sends the characters, and does nothing else. -/
theorem run_putChars (cs : List Char) (bs : List Byte) : (putChars cs).run bs = ⟨cs.map .putc, some ((), bs)⟩ := by
  induction cs with
  | nil => rfl
  | cons c cs ih =>
    have first : (kputc c).run bs = ⟨[.putc c], some ((), bs)⟩ := rfl
    rw [putChars, Prog.run_bind_some (congrArg Run.out first), first, ih]
    rfl

theorem run_kprintf_iff {fmt : String} {vl : List VaArg} {bs : List Byte} {out : List Char} :
    (kprintf fmt vl).run bs = ⟨out.map .putc, some ((), bs)⟩ ↔ out = kprintfChars fmt vl := by
  rw [kprintf, run_putChars, Run.mk.injEq, and_iff_left rfl]
  constructor
  · intro same
    have chars : Function.Injective Event.putc := fun c c' putc => Event.putc.inj putc
    exact (List.map_injective_iff.mpr chars same).symm
  · intro same
    rw [same]

/-- **`kprintf` renders its format**: every string is the text of one format, and with arguments of the types the
format takes, a run of `kprintf` sends what the format prints and does nothing else, whatever there is to receive. -/
theorem kprintf_renders (fmt : String) (vl : List VaArg) (bs : List Byte) :
    (∃! f : Format, f.text = cString fmt.toList) ∧
      ∀ f : Format, f.text = cString fmt.toList → f.arguments <+: vl.map VaArg.type →
        ∀ out, f.Prints vl out ↔ (kprintf fmt vl).run bs = ⟨out.map .putc, some ((), bs)⟩ := by
  refine ⟨existsUnique_format fmt.toList, fun f text matching out => ?_⟩
  rw [run_kprintf_iff]
  constructor
  · intro prints
    exact (prints.chars text).symm
  · intro same
    obtain ⟨out', vl', renders⟩ := exists_renders f.tokens matching
    have prints : f.Prints vl out' := ⟨vl', renders⟩
    rwa [same, prints.chars text]

/-- `%hx`, `%lhx`, a string, a character, a conversion that prints nothing, and one that is not finished. -/
def mixedFormat : Format where
  tokens := [.conversion [.h] 'x' (by decide) (by decide), .conversion [.l, .h] 'x' (by decide) (by decide),
    .conversion [] 's' (by decide) (by decide), .conversion [] 'c' (by decide) (by decide),
    .conversion [] 'd' (by decide) (by decide)]
  unfinished := some [.l]

theorem kprintf_renders_mixed :
    mixedFormat.text = cString "%hx%lhx%s%c%d%l".toList ∧
      mixedFormat.Prints [.uint 0x1AB, .ulong 0xC0FFEE, .str ['o', 'k'], .int 33] "ab0000000000c0ffeeok!".toList := by
  have text : mixedFormat.text = cString "%hx%lhx%s%c%d%l".toList := by decide
  exact ⟨text, ((kprintf_renders "%hx%lhx%s%c%d%l" _ []).2 mixedFormat text (by decide) _).mpr
    (run_kprintf_iff.mpr (by decide))⟩

end Zcu102.Boot
