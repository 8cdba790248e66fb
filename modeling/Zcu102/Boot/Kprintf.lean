import Mathlib.Data.List.Basic

/-!
# The console formatter of the boot ROM (`kprintf.c`)

`kputs` and `kprintf` only call `kputc`, so each is modelled by the characters
it outputs. `kprintf` is the one-pass scan of the source with its three flags;
a `%x` prints from its highest nibble down. A variable argument of another type
than the conversion reads is outside the C contract and reads as zero.
-/

namespace Zcu102.Boot
set_option autoImplicit false

/-- The loop of `_kputs`, up to the NUL. -/
def kputsLoop : List Char → List Char
  | [] => []
  | c :: s => if c = '\x00' then [] else c :: kputsLoop s

/-- The characters of `kputs`: the string and a line end. -/
def kputsChars (s : String) : List Char := kputsLoop s.toList ++ ['\r', '\n']

/-- An argument of `kprintf`, under the type `va_arg` reads it with. -/
inductive VaArg where
  | ulong (n : BitVec 64)
  | uint (n : BitVec 32)
  | str (s : List Char)
  | int (n : BitVec 32)
  deriving DecidableEq, Repr

def vaUlong : List VaArg → BitVec 64
  | .ulong n :: _ => n
  | _ => 0

def vaUint : List VaArg → BitVec 32
  | .uint n :: _ => n
  | _ => 0

def vaStr : List VaArg → List Char
  | .str s :: _ => s
  | _ => []

def vaInt : List VaArg → BitVec 32
  | .int n :: _ => n
  | _ => 0

/-- `d < 10 ? '0' + d : 'a' + d - 10` -/
def hexDigit (d : ℕ) : Char :=
  if d < 10 then Char.ofNat ('0'.toNat + d) else Char.ofNat ('a'.toNat + d - 10)

/-- The digit loop over the shifts `4 * (k - 1), …, 4, 0`. -/
def hexDigits (n : BitVec 64) : ℕ → List Char
  | 0 => []
  | k + 1 => hexDigit ((n >>> (4 * k)) &&& 0xF).toNat :: hexDigits n k

/-- The scan of `kprintf` over what is left of the format. -/
def kprintfLoop : List Char → (isFormat isLong isChar : Bool) → List VaArg → List Char
  | [], _, _, _, _ => []
  | c :: fmt, isFormat, isLong, isChar, vl =>
    if c = '\x00' then []
    else if isFormat then
      if c = 'l' then kprintfLoop fmt isFormat true isChar vl
      else if c = 'h' then kprintfLoop fmt isFormat isLong true vl
      else if c = 'x' then
        if isLong then hexDigits (vaUlong vl) 16 ++ kprintfLoop fmt false false false vl.tail
        else hexDigits ((vaUint vl).setWidth 64) (if isChar then 2 else 8) ++
          kprintfLoop fmt false false false vl.tail
      else if c = 's' then kputsLoop (vaStr vl) ++ kprintfLoop fmt false false false vl.tail
      else if c = 'c' then Char.ofNat ((vaInt vl).toNat % 256) :: kprintfLoop fmt false false false vl.tail
      else kprintfLoop fmt false false false vl
    else if c = '%' then kprintfLoop fmt true isLong isChar vl
    else c :: kprintfLoop fmt isFormat isLong isChar vl

/-- The characters of `kprintf(fmt, vl...)`. -/
def kprintfChars (fmt : String) (vl : List VaArg) : List Char :=
  kprintfLoop fmt.toList false false false vl

end Zcu102.Boot
