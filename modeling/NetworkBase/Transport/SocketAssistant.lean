import Mathlib.Algebra.Group.Int.Defs
import Mathlib.Algebra.Group.Nat.Defs
import Mathlib.Data.List.TakeWhile

/-!
# Helpers shared by the sockets

The kernel enters as the answers it gives: error numbers, `fcntl` flags and the pending error of a
socket.  The two text readers of the C library that decide which addresses are accepted, `sscanf`
and `inet_addr`, are written out over the bytes of a string.
-/

namespace NetworkBase

/-- The error numbers that the code tells apart. -/
inductive Errno
  | eagain
  | eintr
  | einprogress
  | einval
  | other (code : Nat)
  deriving DecidableEq, Repr

/-- Answers of `fcntl`: the flags of a descriptor, and whether setting them succeeds. -/
structure Fcntl where
  /-- `F_GETFL`, or `none` for a failure. -/
  getfl : Int → Option Nat
  /-- `F_SETFL` succeeds. -/
  setfl : Int → Nat → Bool

/-- Answers of `getsockopt` for `SO_ERROR`. -/
inductive SoError
  /-- The call itself fails. -/
  | unreadable
  /-- No error is pending. -/
  | clear
  /-- This error is pending. -/
  | pending (errno : Errno)
  deriving DecidableEq, Repr

namespace SocketAssistant

/-- `O_NONBLOCK`. -/
def oNonblock : Nat := 0x800

/-- `MakeNonBlock`. -/
def makeNonBlock (fcntl : Fcntl) (fd : Int) : Int :=
  match fcntl.getfl fd with
  | none => -1
  | some flags =>
      if flags &&& oNonblock = 0 then
        if fcntl.setfl fd (flags ||| oNonblock) then 0 else -1
      else
        0

/-- `ErrorWouldBlock`. -/
def errorWouldBlock (errno : Errno) : Bool :=
  errno = .eagain ∨ errno = .eintr ∨ errno = .einprogress

/-- `SocketFinishConnecting`: 1 connected, 0 still connecting, -1 failed. -/
def socketFinishConnecting : SoError → Int
  | .unreadable => -1
  | .clear => 1
  | .pending errno => if errno = .eintr ∨ errno = .einprogress then 0 else -1

/-! ## Reading numbers from text -/

/-- The bytes before the first NUL. -/
def cStr (text : List UInt8) : List UInt8 := text.takeWhile (· ≠ 0)

/-- A text without NUL is a string of C. -/
theorem cStr_of_plain {text : List UInt8} (plain : 0 ∉ text) : cStr text = text := by
  rw [cStr, List.takeWhile_eq_self_iff]
  intro char mem
  rw [decide_eq_true_eq]
  rintro rfl
  exact plain mem

/-- `isspace` in the C locale. -/
def isSpace (char : UInt8) : Bool := char = 32 ∨ 9 ≤ char ∧ char ≤ 13

/-- `isdigit`. -/
def isDigit (char : UInt8) : Bool := 48 ≤ char ∧ char ≤ 57

/-- The number spelled by digits of a base, the most significant first. -/
def numeral (base : Nat) (digits : List Nat) : Nat :=
  digits.foldl (fun value digit => base * value + digit) 0

/-- The number spelled by decimal digit characters. -/
def decimal (digits : List UInt8) : Nat := numeral 10 (digits.map fun char => (char - 48).toNat)

/-- What `%d` stores for a value outside `int`: `long` saturates and loses its upper half. -/
def intOverflow (value : Int) : Int := (max (-2 ^ 63) (min (2 ^ 63 - 1) value)).bmod (2 ^ 32)

/-- `%d`: white space, an optional sign and the longest run of digits. -/
def scanInt (overflow : Int → Int) (text : List UInt8) : Option (Int × List UInt8) :=
  let text := text.dropWhile isSpace
  let (negative, text) :=
    match text with
    | 43 :: rest => (false, rest)
    | 45 :: rest => (true, rest)
    | rest => (false, rest)
  let digits := text.takeWhile isDigit
  if digits = [] then
    none
  else
    let value : Int := if negative then -decimal digits else decimal digits
    some (if -2 ^ 31 ≤ value ∧ value < 2 ^ 31 then value else overflow value,
      text.dropWhile isDigit)

/-- A literal dot of a `sscanf` format. -/
def scanDot : List UInt8 → Option (List UInt8)
  | 46 :: rest => some rest
  | _ => none

/-- `sscanf` with `"%d.%d.%d.%d"`, where all four conversions succeed. -/
def scanParts (overflow : Int → Int) (text : List UInt8) : Option (Int × Int × Int × Int) := do
  let (part₁, text) ← scanInt overflow text
  let text ← scanDot text
  let (part₂, text) ← scanInt overflow text
  let text ← scanDot text
  let (part₃, text) ← scanInt overflow text
  let text ← scanDot text
  let (part₄, _) ← scanInt overflow text
  some (part₁, part₂, part₃, part₄)

/-- `IpValid`, for a given way to store values outside `int`. -/
def ipValidWith (overflow : Int → Int) (ip : List UInt8) : Bool :=
  match scanParts overflow (cStr ip) with
  | none => false
  | some (part₁, part₂, part₃, part₄) =>
      if part₁ > 255 ∨ part₂ > 255 ∨ part₃ > 255 ∨ part₄ > 255 then
        false
      else
        ip.all fun char => char = 46 ∨ isDigit char

/-- `IpValid`. -/
def ipValid (ip : List UInt8) : Bool := ipValidWith intOverflow ip

/-! ## `inet_addr` -/

/-- The value of a digit character of any base up to 16. -/
def digitValue (char : UInt8) : Option Nat :=
  if 48 ≤ char ∧ char ≤ 57 then some (char - 48).toNat
  else if 97 ≤ char ∧ char ≤ 102 then some (char - 87).toNat
  else if 65 ≤ char ∧ char ≤ 70 then some (char - 55).toNat
  else none

/-- The longest run of digits of a base, and what follows it. -/
def takeDigits (base : Nat) : List UInt8 → List Nat × List UInt8
  | [] => ([], [])
  | char :: rest =>
      match digitValue char with
      | none => ([], char :: rest)
      | some value =>
          if value < base then
            (value :: (takeDigits base rest).1, (takeDigits base rest).2)
          else
            ([], char :: rest)

/-- `strtoul` with base 0, on a text that begins with a digit: hexadecimal after `0x`, octal after
`0`, decimal otherwise. -/
def strtoul (text : List UInt8) : Nat × List UInt8 :=
  let number (base : Nat) (text : List UInt8) : Nat × List UInt8 :=
    (numeral base (takeDigits base text).1, (takeDigits base text).2)
  match text with
  | 48 :: mark :: rest =>
      if (mark = 120 ∨ mark = 88) ∧ (takeDigits 16 rest).1 ≠ [] then number 16 rest
      else number 8 text
  | 48 :: _ => number 8 text
  | _ => number 10 text

/-- The numbers of a dotted address of at most `parts` parts, the last one followed by the end of
the text or by white space. -/
def inetParts : Nat → List UInt8 → Option (List Nat)
  | 0, _ => none
  | parts + 1, text =>
      if (text.head?.map isDigit).getD false then
        let (value, rest) := strtoul text
        if value > 0xffffffff then
          none
        else
          match rest with
          | [] => some [value]
          | char :: rest =>
              if char = 46 then
                if parts = 0 ∨ value > 0xff then none
                else (inetParts parts rest).map (value :: ·)
              else if isSpace char then
                some [value]
              else
                none
      else
        none

/-- `inet_addr`: the address in host order, `0xffffffff` for a text that is not one. -/
def inetAddr (text : List UInt8) : UInt32 :=
  match inetParts 4 (cStr text) with
  | some [a] => UInt32.ofNat a
  | some [a, b] => if b > 0xffffff then 0xffffffff else UInt32.ofNat (a * 2 ^ 24 + b)
  | some [a, b, c] =>
      if c > 0xffff then 0xffffffff else UInt32.ofNat (a * 2 ^ 24 + b * 2 ^ 16 + c)
  | some [a, b, c, d] =>
      if d > 0xff then 0xffffffff
      else UInt32.ofNat (a * 2 ^ 24 + b * 2 ^ 16 + c * 2 ^ 8 + d)
  | _ => 0xffffffff

end SocketAssistant
end NetworkBase
