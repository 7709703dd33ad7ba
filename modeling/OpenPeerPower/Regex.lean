import OpenPeerPower.Value

/-!
# The `re` patterns of the fuzzy matcher

`_fuzzymatch` compiles `".*?".join(name)` with `re.IGNORECASE` and calls `search`. This module
models `sre_parse` and the backtracking matcher on the syntax such a pattern can contain:
literals, `.`, `^`, `$`, escapes of punctuation, groups, `|`, the repeats `*`, `+`, `?` (lazy
when followed by `?`) of a single-character item, and character sets. Every error `sre_parse`
raises on these is raised here with its message: `nothing to repeat`, `multiple repeat`, `missing
), unterminated subpattern`, `unbalanced parenthesis`, `unterminated character set`, `bad escape
(end of pattern)` and `bad character range`.

A join pattern never contains `(?`, a repeat of a group, `{m,n}`, an alphanumeric escape or an
increasing set range (between a name's `-` and its neighbours the join puts `?` and `.`, so a range
there is always `?-.`); `compile` answers `unsupported` for those.

Matching is continuation-passing, in the order `sre` tries alternatives: left branch first, a lazy
repeat with the fewest characters first, a greedy one with the most. `lower` is the case folding
that `re.IGNORECASE` compares characters by.
-/

namespace OpenPeerPower

namespace Re

/-- `re.error` with its message, or a construct outside the modelled syntax. -/
inductive ReError where
  | error (msg : String)
  | unsupported
  deriving Repr, DecidableEq

/-- A single-character item: `LITERAL`, `ANY` or `IN` (a set of literal characters, possibly
negated). -/
inductive Atom where
  | literal (c : Char)
  | any
  | set (neg : Bool) (members : List Char)
  deriving Repr, DecidableEq

/-- A compiled pattern. `rep lo hi lazy a` repeats the single-character item `a` between `lo` and
`hi` times (`MIN_REPEAT` when `lazy`, else `MAX_REPEAT`). -/
inductive Regex where
  | empty
  | atom (a : Atom)
  | rep (lo : Nat) (hi : Option Nat) (lazy : Bool) (a : Atom)
  | atBeginning
  | atEnd
  | seq (r t : Regex)
  | alt (r t : Regex)
  deriving Repr, DecidableEq

/-- An item of a branch being parsed, with what `sre_parse` checks before repeating it. -/
inductive Item where
  | atom (a : Atom)
  | rep (lo : Nat) (hi : Option Nat) (lazy : Bool) (a : Atom)
  | anchor (r : Regex)
  | group (r : Regex)
  deriving Repr, DecidableEq

def Item.toRegex : Item → Regex
  | .atom a => .atom a
  | .rep lo hi lazy a => .rep lo hi lazy a
  | .anchor r | .group r => r

/-- The items of a branch, in order, as one pattern. -/
def seqOf : List Item → Regex
  | [] => .empty
  | i :: is => .seq i.toRegex (seqOf is)

/-- The branches of a group (`_parse_sub`), tried in order. -/
def altOf : List Regex → Regex
  | [] => .empty
  | [r] => r
  | r :: rs => .alt r (altOf rs)

/-- A group being parsed: its finished branches and the items of the current one, latest
first. -/
structure Frame where
  branches : List Regex
  items : List Item
  deriving Repr

namespace Frame

def push (f : Frame) (i : Item) : Frame := { f with items := i :: f.items }

def close (f : Frame) : Regex := altOf (f.branches ++ [seqOf f.items.reverse])

/-- `|`: the current branch is finished. -/
def bar (f : Frame) : Frame := ⟨f.branches ++ [seqOf f.items.reverse], []⟩

/-- A repeat operator applied to the last item (the checks of `_parse` for `REPEAT_CHARS`). -/
def repeatLast (f : Frame) (lo : Nat) (hi : Option Nat) (lazy : Bool) : Except ReError Frame :=
  match f.items with
  | [] => .error (.error "nothing to repeat")
  | .anchor _ :: _ => .error (.error "nothing to repeat")
  | .rep .. :: _ => .error (.error "multiple repeat")
  | .group _ :: _ => .error .unsupported
  | .atom a :: is => .ok ⟨f.branches, .rep lo hi lazy a :: is⟩

end Frame

/-- Inside `[...]`: negated or not, the members so far, and the member just read, which a `-` may
turn into the start of a range. -/
structure SetState where
  neg : Bool
  members : List Char
  last : Option Char
  deriving Repr

def SetState.all (st : SetState) : List Char := st.members ++ st.last.toList

/-- The characters `sre_parse` treats specially outside a set (`SPECIAL_CHARS`). -/
def specialChars : List Char := ['.', '\\', '[', '{', '(', ')', '*', '+', '?', '^', '$', '|']

/-- Repeat bounds of `*`, `+` and `?`. -/
def repeatBounds : Char → Option (Nat × Option Nat)
  | '*' => some (0, none)
  | '+' => some (1, none)
  | '?' => some (0, some 1)
  | _ => none

/-- The error for the range `a-d` in a set: decreasing ranges are rejected, increasing ones are
outside the modelled syntax. -/
def rangeError (a d : Char) : ReError :=
  if d < a then .error s!"bad character range {a}-{d}" else .unsupported

/-- What one iteration of the parsing loop does with the character it read: raise, or go on with
the rest of the pattern (`next`), or with the rest after one more character it consumed by
looking ahead (`skip`, `sourcematch` in `sre_parse`). -/
inductive Act where
  | raise (e : ReError)
  | next (mode : Option SetState) (f : Frame) (fs : List Frame)
  | skip (mode : Option SetState) (f : Frame) (fs : List Frame)

/-- One character `c` inside a set, followed by `rest`: a `-` after a member starts a range, `]`
closes the set unless it is the first member, `\\` escapes a punctuation character. -/
def setStep (c : Char) (rest : List Char) (st : SetState) (f : Frame) (fs : List Frame) : Act :=
  match st.last, c == '-', rest with
  | some _, true, [] => .raise (.error "unterminated character set")
  | some a, true, d :: rest' =>
    if d = ']' then .skip none (f.push (.atom (.set st.neg (st.members ++ [a, '-'])))) fs
    else if d = '\\' then
      match rest' with
      | [] => .raise (.error "bad escape (end of pattern)")
      | e :: _ => .raise (rangeError a e)
    else .raise (rangeError a d)
  | _, _, _ =>
    if c = ']' then
      if st.all = [] then .next (some ⟨st.neg, [], some ']'⟩) f fs
      else .next none (f.push (.atom (.set st.neg st.all))) fs
    else if c = '\\' then
      match rest with
      | [] => .raise (.error "bad escape (end of pattern)")
      | e :: _ =>
        if e.isAlphanum then .raise .unsupported else .skip (some ⟨st.neg, st.all, some e⟩) f fs
    else .next (some ⟨st.neg, st.all, some c⟩) f fs

/-- A repeat operator with bounds `lo`, `hi` applied to the last item; a following `?` makes it
lazy. -/
def repeatStep (rest : List Char) (lo : Nat) (hi : Option Nat) (f : Frame) (fs : List Frame) : Act :=
  if rest.head? = some '?' then
    match f.repeatLast lo hi true with
    | .error e => .raise e
    | .ok f' => .skip none f' fs
  else if rest.head? = some '+' then .raise .unsupported
  else
    match f.repeatLast lo hi false with
    | .error e => .raise e
    | .ok f' => .next none f' fs

/-- One character `c` outside a set, followed by `rest`, in the order of the tests of `_parse`: an
escape, a character outside `SPECIAL_CHARS`, `[`, the repeat characters (`{` is a literal unless a
bound follows), then `.`, `(`, `)`, `|`, `^` and `$`. -/
def outStep (c : Char) (rest : List Char) (f : Frame) (fs : List Frame) : Act :=
  if c = '\\' then
    match rest with
    | [] => .raise (.error "bad escape (end of pattern)")
    | e :: _ => if e.isAlphanum then .raise .unsupported else .skip none (f.push (.atom (.literal e))) fs
  else if c ∉ specialChars then .next none (f.push (.atom (.literal c))) fs
  else if c = '[' then
    if rest.head? = some '^' then .skip (some ⟨true, [], none⟩) f fs
    else .next (some ⟨false, [], none⟩) f fs
  else if c = '{' then
    if rest.head?.any fun d => d.isDigit || d == ',' then .raise .unsupported
    else .next none (f.push (.atom (.literal '{'))) fs
  else
    match repeatBounds c with
    | some (lo, hi) => repeatStep rest lo hi f fs
    | none =>
      if c = '.' then .next none (f.push (.atom .any)) fs
      else if c = '(' then
        if rest.head? = some '?' then .raise .unsupported else .next none ⟨[], []⟩ (f :: fs)
      else if c = ')' then
        match fs with
        | [] => .raise (.error "unbalanced parenthesis")
        | g :: gs => .next none (g.push (.group f.close)) gs
      else if c = '|' then .next none f.bar fs
      else if c = '^' then .next none (f.push (.anchor .atBeginning)) fs
      else .next none (f.push (.anchor .atEnd)) fs

/-- One iteration of the parsing loop, in or out of a set. -/
def step (c : Char) (rest : List Char) : Option SetState → Frame → List Frame → Act
  | none, f, fs => outStep c rest f fs
  | some st, f, fs => setStep c rest st f fs

/-- `sre_parse._parse_sub` on a whole pattern, as one left-to-right pass: `mode` is `some` inside a
set, `f` is the innermost open group and `fs` the groups around it. -/
def parseAux : List Char → Option SetState → Frame → List Frame → Except ReError Regex
  | [], none, f, [] => .ok f.close
  | [], none, _, _ :: _ => .error (.error "missing ), unterminated subpattern")
  | [], some _, _, _ => .error (.error "unterminated character set")
  | c :: rest, mode, f, fs =>
    match step c rest mode f fs, rest with
    | .raise e, _ => .error e
    | .next mode' f' fs', rest => parseAux rest mode' f' fs'
    | .skip mode' f' fs', _ :: rest' => parseAux rest' mode' f' fs'
    | .skip mode' f' fs', [] => parseAux [] mode' f' fs'

/-- `re.compile(pattern)`. -/
def compile (pattern : List Char) : Except ReError Regex := parseAux pattern none ⟨[], []⟩ []

section Match

variable (lower : Char → Char)

/-- Whether a single-character item matches a character, case-insensitively. -/
def Atom.matches : Atom → Char → Bool
  | .literal c, x => lower c == lower x
  | .any, x => x != '\n'
  | .set neg members, x => members.any (fun c => lower c == lower x) != neg

/-- How many characters from the start of `cs` the item matches in a row. -/
def runLength (a : Atom) (cs : List Char) : Nat := (cs.takeWhile (a.matches lower)).length

/-- The backtracking matcher: match `r` at position `i`, where `cs` is the rest of the string, and
pass each way `r` can end, in the order `sre` tries them, to the continuation `k`; the first
success is the answer. -/
def matchHere : Regex → Nat → List Char → (Nat → List Char → Option Nat) → Option Nat
  | .empty, i, cs, k => k i cs
  | .atom _, _, [], _ => none
  | .atom a, i, x :: cs, k => if a.matches lower x then k (i + 1) cs else none
  | .rep lo hi lazy a, i, cs, k =>
    let n := runLength lower a cs
    let counts := (List.range ((hi.getD n).min n + 1)).drop lo
    (if lazy then counts else counts.reverse).findSome? fun m => k (i + m) (cs.drop m)
  | .atBeginning, i, cs, k => if i = 0 then k i cs else none
  | .atEnd, i, cs, k => if cs = [] ∨ cs = ['\n'] then k i cs else none
  | .seq r t, i, cs, k => matchHere r i cs fun j ds => matchHere t j ds k
  | .alt r t, i, cs, k => (matchHere r i cs k).orElse fun _ => matchHere t i cs k

/-- `regex.search(string)`: the first start position, from the left, at which the pattern
matches; the answer is the match's start and end. -/
def search (r : Regex) : Nat → List Char → Option (Nat × Nat)
  | i, [] => (matchHere lower r i [] fun j _ => some j).map fun j => (i, j)
  | i, x :: cs =>
    match matchHere lower r i (x :: cs) (fun j _ => some j) with
    | some j => some (i, j)
    | none => search r (i + 1) cs

end Match

end Re

end OpenPeerPower
