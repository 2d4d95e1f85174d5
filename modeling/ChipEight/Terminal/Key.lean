/-! Keys as a terminal sends them: one character, or an escape sequence of several. -/

namespace ChipEight

structure Modifiers where
  shift : Bool := false
  control : Bool := false
  alt : Bool := false
  deriving DecidableEq, Repr

inductive KeyCode where
  | char (c : Char)
  | function (n : Nat)
  | escape | enter | tab | backTab | backspace | null
  | up | down | left | right | home | lineEnd | insert | delete | pageUp | pageDown
  deriving DecidableEq, Repr

structure Key where
  code : KeyCode
  modifiers : Modifiers := {}
  deriving DecidableEq, Repr

namespace Key

/-- Escape, `q` however it is held, and control with `c`. -/
def isQuit (k : Key) : Bool :=
  match k.code with
  | .escape | .char 'q' => true
  | .char 'c' => k.modifiers.control
  | _ => false

inductive Reading where
  | unfinished
  | key (k : Key)
  /-- Nothing that is a key here: a mouse report, a cursor report, or no sequence at all. -/
  | noKey
  deriving DecidableEq, Repr

def plain (code : KeyCode) : Reading := .key ⟨code, {}⟩

def ofControl (c : Char) : Key := ⟨.char c, { control := true }⟩

/-- A character that begins no sequence. Shift is seen on the letters A to Z only. -/
def ofChar (c : Char) : Key :=
  let n := c.toNat
  if c = '\r' then ⟨.enter, {}⟩
  else if c = '\t' then ⟨.tab, {}⟩
  else if n = 0x7F then ⟨.backspace, {}⟩
  else if n = 0 then ofControl ' '
  else if n ≤ 0x1A then ofControl (Char.ofNat (n + 0x60))
  else if 0x1C ≤ n ∧ n ≤ 0x1F then ofControl (Char.ofNat (n + 0x18))
  else ⟨.char c, { shift := c.isUpper }⟩

/-- The part of a sequence after escape and `[`. After `M` come the three bytes of a mouse report; what is left of
a character that runs past them is no key. -/
def ofSequence : List Char → Reading
  | [] => .unfinished
  | ['['] => .unfinished
  | '[' :: c :: _ => if 'A' ≤ c ∧ c ≤ 'E' then plain (.function (c.toNat - 0x40)) else .noKey
  | 'A' :: _ => plain .up
  | 'B' :: _ => plain .down
  | 'C' :: _ => plain .right
  | 'D' :: _ => plain .left
  | 'H' :: _ => plain .home
  | 'F' :: _ => plain .lineEnd
  | 'Z' :: _ => .key ⟨.backTab, { shift := true }⟩
  | 'M' :: report => if (String.ofList report).utf8ByteSize < 3 then .unfinished else .noKey
  | '<' :: report => if report.getLast?.any fun c => c = 'm' || c = 'M' then .noKey else .unfinished
  | c :: rest =>
      if !c.isDigit then .noKey
      else match rest.getLast? with
        | none => .unfinished
        | some l =>
            if l.toNat < 0x40 || 0x7E < l.toNat then .unfinished
            else if l ≠ '~' then .noKey
            else match (String.ofList (c :: rest.dropLast)).toNat? with
              | some 1 | some 7 => plain .home
              | some 2 => plain .insert
              | some 3 => plain .delete
              | some 4 | some 8 => plain .lineEnd
              | some 5 => plain .pageUp
              | some 6 => plain .pageDown
              | _ => .noKey

/-- Reads what was gathered; `more` tells that more has arrived already, so that a lone escape may yet begin a
sequence. -/
def read (more : Bool) : List Char → Reading
  | [] => .unfinished
  | ['\x1b'] => if more then .unfinished else plain .escape
  | '\x1b' :: '\x1b' :: _ => plain .escape
  | ['\x1b', 'O'] => .unfinished
  | '\x1b' :: 'O' :: c :: _ => if 'P' ≤ c ∧ c ≤ 'S' then plain (.function (c.toNat - 0x4F)) else .noKey
  | '\x1b' :: '[' :: rest => ofSequence rest
  | '\x1b' :: c :: _ => let k := ofChar c; .key { k with modifiers := { k.modifiers with alt := true } }
  | c :: _ => .key (ofChar c)

/-- The keys in text that arrives at once after `pending`, and what is left pending. -/
def readAll (pending : List Char) : List Char → List Key × List Char
  | [] => ([], pending)
  | c :: rest =>
      match read (!rest.isEmpty) (pending ++ [c]) with
      | .unfinished => readAll (pending ++ [c]) rest
      | .noKey => readAll [] rest
      | .key k => let (ks, left) := readAll [] rest; (k :: ks, left)

def ofTexts (pending : List Char) : List String → List Key
  | [] => []
  | t :: ts => let (ks, left) := readAll pending t.toList; ks ++ ofTexts left ts

end Key

end ChipEight
