import ClassDiagram.Json.Cursor
import ClassDiagram.Text.Hex
/-!
# JSON strings

Scanning a string from just after its opening quote. `text` gives the characters it denotes.
`skipText` only checks how it is written, so that it also passes over surrogates without a partner.
-/

namespace ClassDiagram.Json

/-- The character that a one-letter escape denotes. -/
def letterEscape? : Char → Option Char
  | '\x22' => some '\x22'
  | '\\' => some '\\'
  | '/' => some '/'
  | 'b' => some '\x08'
  | 'f' => some '\x0c'
  | 'n' => some '\n'
  | 'r' => some '\r'
  | 't' => some '\t'
  | _ => none

namespace Scan

/-- Four hexadecimal digits at the front of the characters at `index`. When something else is
there the fault lies behind four bytes, and with fewer bytes left at the end. -/
def hexQuad (l : List Char) (index : Nat) : Except Fault Nat :=
  match l with
  | a :: b :: c :: d :: _ =>
    match Text.hexValue? a, Text.hexValue? b, Text.hexValue? c, Text.hexValue? d with
    | some w, some x, some y, some z => .ok (((w * 16 + x) * 16 + y) * 16 + z)
    | _, _, _, _ => .error ⟨.invalidEscape, index + 4⟩
  | short =>
    let bytes := byteLength short
    if bytes < 4 then .error ⟨.unfinishedString, index + bytes⟩
    else .error ⟨.invalidEscape, index + 4⟩

/-- The escape at the front of the characters at `index`, after its backslash: the character that
it denotes, and how many characters it is written with. -/
def escape (l : List Char) (index : Nat) : Except Fault (Char × Nat) :=
  match l with
  | [] => .error ⟨.unfinishedString, index⟩
  | 'u' :: rest => do
    let n ← hexQuad rest (index + 1)
    if 0xDC00 ≤ n ∧ n ≤ 0xDFFF then .error ⟨.unpairedSurrogate, index + 5⟩
    else if n < 0xD800 ∨ 0xDBFF < n then .ok (Char.ofNat n, 5)
    else
      match rest.drop 4 with
      | [] => .error ⟨.unfinishedString, index + 5⟩
      | '\\' :: after =>
        match after with
        | [] => .error ⟨.unfinishedString, index + 6⟩
        | 'u' :: low => do
          let k ← hexQuad low (index + 7)
          if k < 0xDC00 ∨ 0xDFFF < k then .error ⟨.unpairedSurrogate, index + 11⟩
          else .ok (Char.ofNat ((n - 0xD800) * 0x400 + (k - 0xDC00) + 0x10000), 11)
        | _ => .error ⟨.unfinishedSurrogate, index + 7⟩
      | _ => .error ⟨.unfinishedSurrogate, index + 6⟩
  | a :: _ =>
    match letterEscape? a with
    | some b => .ok (b, 1)
    | none => .error ⟨.invalidEscape, index + 1⟩

/-- The rest of a string after the characters `seen`, which are kept in reverse. -/
def textFrom (seen : List Char) : List Char → Nat → Except Fault (String × Cursor)
  | [], index => .error ⟨.unfinishedString, index⟩
  | '\x22' :: rest, index => .ok (String.ofList seen.reverse, ⟨rest, index + 1⟩)
  | '\\' :: rest, index =>
    match escape rest (index + 1) with
    | .ok (c, n) => textFrom (c :: seen) (rest.drop n) (index + 1 + n)
    | .error f => .error f
  | a :: rest, index =>
    if a.toNat < 0x20 then .error ⟨.controlCharacter, index + 1⟩
    else textFrom (a :: seen) rest (index + a.utf8Size)
termination_by l => l.length
decreasing_by all_goals simp only [List.length_cons, List.length_drop]; omega

/-- The characters of a string, up to and over its closing quote. -/
def text : Scan String := fun c => textFrom [] c.rest c.index

/-- How many characters the escape at the front of the characters at `index` is written with; the
code point it gives does not matter. -/
def escapeLength (l : List Char) (index : Nat) : Except Fault Nat :=
  match l with
  | [] => .error ⟨.unfinishedString, index⟩
  | 'u' :: rest => (hexQuad rest (index + 1)).map fun _ => 5
  | a :: _ => if (letterEscape? a).isSome then .ok 1 else .error ⟨.invalidEscape, index + 1⟩

/-- The place after the closing quote of a string. -/
def textEnd : List Char → Nat → Except Fault Cursor
  | [], index => .error ⟨.unfinishedString, index⟩
  | '\x22' :: rest, index => .ok ⟨rest, index + 1⟩
  | '\\' :: rest, index =>
    match escapeLength rest (index + 1) with
    | .ok n => textEnd (rest.drop n) (index + 1 + n)
    | .error f => .error f
  | a :: rest, index =>
    if a.toNat < 0x20 then .error ⟨.controlCharacter, index⟩
    else textEnd rest (index + a.utf8Size)
termination_by l => l.length
decreasing_by all_goals simp only [List.length_cons, List.length_drop]; omega

/-- Passes over the rest of a string. -/
def skipText : Scan Unit := fun c => (textEnd c.rest c.index).map fun d => ((), d)

end Scan

end ClassDiagram.Json
