import SecdMachine.Yaml.Block
import SecdMachine.Yaml.Lookahead
import SecdMachine.Yaml.Plain
import SecdMachine.Yaml.Spacing
import SecdMachine.Yaml.Token

/-!
# SecdMachine.Yaml.Tokens

Cutting a YAML stream into tokens, on demand.

1. Outside brackets, indentation opens and closes blocks: an entry or a key
   that stands deeper than the current block opens one (`roll`), and a token
   that stands less deep closes those that it has left (`unroll`).
2. A key need not be marked as one: that something is a key shows only at the
   colon after it.  So whatever may turn out to be a key is remembered with the
   number of its token (`PendingKey`), one for each level of brackets.  At the
   colon, a key token and, if need be, the start of a block go in front of it.
   The colon must come on the same line, at most 1024 characters on.
3. A token is handed out (`demand`) only when two more have been read and when
   it is settled whether it starts a key.  So a stream that is malformed is
   refused a little before its faulty place is reached, and what comes after
   the first document is read no further than that.
-/

namespace SecdMachine.Yaml

/-- Something that may turn out to be a key. -/
structure PendingKey where
  /-- Whether it may still be one. -/
  possible : Bool
  /-- Whether it has to be one, because nothing else may stand at its place. -/
  required : Bool
  /-- The number of the token that it starts with. -/
  number : Nat
  place : Place
deriving DecidableEq, Repr

/-- How far from its start the colon of a key may stand. -/
def keyReach : Nat := 1024

/-- Whether a key can no longer be completed at the place `p`. -/
def PendingKey.isStale (k : PendingKey) (p : Place) : Bool :=
  k.place.line < p.line || k.place.index + keyReach < p.index

/-- The number of levels that brackets, or blocks, may be nested to. -/
def maxLevel : Nat := 10000

/-- A stream that is being cut into tokens. -/
structure Tokens where
  /-- What has not been read yet. -/
  rest : List Cell
  /-- The part of the text that is at hand. -/
  window : Window
  /-- The tokens that have been read and not been taken. -/
  queue : List Token := []
  /-- The number of tokens that have been taken. -/
  taken : Nat := 0
  /-- The column of the current block, and -1 outside all blocks. -/
  indent : Int := -1
  /-- The columns of the blocks around it, innermost first. -/
  indents : List Int := []
  /-- The number of brackets that are open. -/
  level : Nat := 0
  /-- The pending key of each level of brackets, innermost first; the last
  one is outside all brackets. -/
  keys : List PendingKey := [⟨false, false, 0, ⟨0, 0, 0⟩⟩]
  /-- The numbers of the tokens that may start a key, with their levels. -/
  awaited : List (Nat × Nat) := []
  /-- Whether a key may start here. -/
  keyAllowed : Bool := true
  /-- The number of cells of the whole text. -/
  size : Nat := rest.length
deriving Repr

namespace Tokens

/-- The place that has been reached. -/
def place (t : Tokens) : Place :=
  match t.rest with
  | c :: _ => c.toPlace
  | [] => ⟨0, 0, 0⟩

/-- Whether the stream is inside brackets. -/
def inFlow (t : Tokens) : Bool :=
  0 < t.level

/-- The number of the next token to be read. -/
def nextNumber (t : Tokens) : Nat :=
  t.taken + t.queue.length

/-- Adds a token, and goes on at `rest`. -/
def push (t : Tokens) (token : Token) (rest : List Cell) : Tokens :=
  { t with queue := t.queue ++ [token], rest := rest }

/-- Goes on with another window. -/
def through (t : Tokens) (window : Window) : Tokens :=
  { t with window := window }

/-- Says whether a key may start here. -/
def allowKey (t : Tokens) (allowed : Bool) : Tokens :=
  { t with keyAllowed := allowed }

/-- Inserts a token in front of the one with the given number, or at the end
if that one has been taken. -/
def insert (t : Tokens) (number : Nat) (token : Token) : Tokens :=
  if number < t.taken then { t with queue := t.queue ++ [token] }
  else
    { t with
      queue := t.queue.take (number - t.taken) ++ token :: t.queue.drop (number - t.taken) }

/-! ## Blocks -/

/-- Opens a block at a column that is deeper than the current block, with a
token in front of the one with the given number. -/
def roll (t : Tokens) (column number : Nat) (token : Token) : Option Tokens :=
  if t.inFlow || (column : Int) ≤ t.indent then some t
  else if maxLevel < t.indents.length + 1 then none
  else some { t.insert number token with indent := column, indents := t.indent :: t.indents }

/-- The columns of the blocks that are left open at a column, and the number of
those that are closed. -/
def closeBlocks (column indent : Int) : List Int → Int × List Int × Nat
  | [] => (indent, [], 0)
  | outer :: indents =>
    if indent ≤ column then (indent, outer :: indents, 0)
    else
      let (indent, indents, closed) := closeBlocks column outer indents
      (indent, indents, closed + 1)

/-- Closes the blocks that are deeper than a column. -/
def unroll (t : Tokens) (column : Int) : Tokens :=
  if t.inFlow then t
  else
    let (indent, indents, closed) := closeBlocks column t.indent t.indents
    { t with
      indent := indent
      indents := indents
      queue := t.queue ++ List.replicate closed .blockEnd }

/-! ## Keys -/

/-- No longer waits to see whether a token starts a key. -/
def settle (t : Tokens) (number : Nat) : Tokens :=
  { t with awaited := t.awaited.filter (·.1 != number) }

/-- Gives up the pending key of the current level, unless it is required. -/
def dropKey (t : Tokens) : Option Tokens :=
  match t.keys with
  | [] => none
  | k :: ks =>
    if !k.possible then some t
    else if k.required then none
    else some { t.settle k.number with keys := { k with possible := false } :: ks }

/-- Remembers that a key may start here, if one is allowed to. -/
def saveKey (t : Tokens) : Option Tokens :=
  if t.keyAllowed then
    t.dropKey.map fun t =>
      let number := t.nextNumber
      let required := !t.inFlow && t.indent == t.place.column
      { t.settle number with
        keys := ⟨true, required, number, t.place⟩ :: t.keys.drop 1
        awaited := (number, t.level) :: (t.settle number).awaited }
  else some t

/-- The pending key of a level that is open. -/
def keyAt? (t : Tokens) (level : Nat) : Option PendingKey :=
  if level ≤ t.level then t.keys[t.level - level]? else none

/-- Replaces the pending key of a level that is open. -/
def setKey (t : Tokens) (level : Nat) (k : PendingKey) : Tokens :=
  { t with keys := t.keys.set (t.level - level) k }

/-- Opens a bracket. -/
def openFlow (t : Tokens) : Option Tokens :=
  if maxLevel < t.level + 1 then none
  else
    some { t with
      level := t.level + 1
      keys := ⟨false, false, t.nextNumber, t.place⟩ :: t.keys }

/-- Closes a bracket, if one is open. -/
def closeFlow (t : Tokens) : Tokens :=
  match t.keys with
  | k :: l :: ks => { t.settle k.number with level := t.level - 1, keys := l :: ks }
  | _ => t

/-! ## Reading tokens -/

/-- Ends the stream. -/
def readEnd (t : Tokens) (c : Cell) : Option Tokens :=
  let c := if c.column = 0 then c else { c with line := c.line + 1, column := 0 }
  (t.unroll (-1)).dropKey.map fun t => (t.allowKey false).push .streamEnd [c]

/-- Reads a directive or a document marker, which closes all blocks. -/
def readMarker (t : Tokens) (token : Token) (rest : List Cell) : Option Tokens :=
  (t.unroll (-1)).dropKey.map fun t => (t.allowKey false).push token rest

/-- Reads an opening bracket. -/
def readOpening (t : Tokens) (token : Token) (rest : List Cell) : Option Tokens :=
  t.saveKey.bind fun t => t.openFlow.map fun t => (t.allowKey true).push token rest

/-- Reads a closing bracket. -/
def readClosing (t : Tokens) (token : Token) (rest : List Cell) : Option Tokens :=
  t.dropKey.map fun t => (t.closeFlow.allowKey false).push token rest

/-- Reads a comma. -/
def readFlowEntry (t : Tokens) (rest : List Cell) : Option Tokens :=
  t.dropKey.map fun t => (t.allowKey true).push .flowEntry rest

/-- Opens a block here, if that is allowed. -/
def rollHere (t : Tokens) (token : Token) : Option Tokens :=
  if t.inFlow then some t
  else if t.keyAllowed then t.roll t.place.column t.nextNumber token
  else none

/-- Reads the dash of an entry. -/
def readBlockEntry (t : Tokens) (rest : List Cell) : Option Tokens :=
  (t.rollHere .blockSequenceStart).bind fun t =>
    t.dropKey.map fun t => (t.allowKey true).push .blockEntry rest

/-- Reads the question mark of a key. -/
def readKey (t : Tokens) (rest : List Cell) : Option Tokens :=
  (t.rollHere .blockMappingStart).bind fun t =>
    t.dropKey.map fun t => (t.allowKey (!t.inFlow)).push .key rest

/-- Reads a colon that no pending key belongs to. -/
def readLoneValue (t : Tokens) (rest : List Cell) : Option Tokens :=
  (t.rollHere .blockMappingStart).map fun t =>
    (t.allowKey (!t.inFlow)).push .value rest

/-- Reads a colon, which makes a key of what is pending. -/
def readValue (t : Tokens) (rest : List Cell) : Option Tokens :=
  match t.keys with
  | [] => none
  | k :: ks =>
    if !k.possible then t.readLoneValue rest
    else if k.isStale t.place then
      if k.required then none
      else ({ t with keys := { k with possible := false } :: ks } : Tokens).readLoneValue rest
    else
      ((t.insert k.number .key).roll k.place.column k.number .blockMappingStart).map fun t =>
        let t := { t.settle k.number with keys := { k with possible := false } :: ks }
        (t.allowKey false).push .value rest

/-- Reads a token that may be a key but has no key after it; `pass` gives the
window there. -/
def readWord (t : Tokens) (pass : List Cell → Option Window)
    (result : Option (Token × List Cell)) : Option Tokens :=
  t.saveKey.bind fun t =>
    result.bind fun (token, rest) =>
      (pass rest).map fun w => ((t.allowKey false).push token rest).through w

/-- A scalar that is not plain as a token. -/
def scalarToken (result : Option (List Char × List Cell)) : Option (Token × List Cell) :=
  result.map fun (text, rest) => (.scalar false (String.ofList text), rest)

/-- Reads a block scalar. -/
def readBlockScalar (t : Tokens) (literal : Bool) (cs : List Cell) : Option Tokens :=
  t.dropKey.bind fun t =>
    (scalarToken (readBlock? literal t.indent cs)).bind fun (token, rest) =>
      (t.window.pass false cs rest).map fun w =>
        ((t.allowKey true).push token rest).through w

/-- Skips a comment on the line of the token that has just been read. -/
def endToken (t : Tokens) : Option Tokens :=
  (skipLineComment t.window t.rest).map fun (w, rest) => { t with rest := rest, window := w }

/-- Reads a plain scalar, and a comment that follows on its line. -/
def readPlainScalar (t : Tokens) : Option Tokens :=
  t.saveKey.bind fun t =>
    let indent := (t.indent + 1).toNat
    (readPlain t.inFlow indent t.rest).bind fun p =>
      (t.window.passPlain t.inFlow indent t.rest p.rest).bind fun w =>
        let t := ((t.allowKey p.broken).push (.scalar true (String.ofList p.text)) p.rest).through w
        if p.broken then some t else t.endToken

/-- Reads the token that starts with the character `c`, which stands before
`cs`. -/
def readToken (t : Tokens) (c : Char) (cs : List Cell) : Option Tokens :=
  let next := charAt 0 cs
  let indicates := t.inFlow || endsWord next
  if c = '[' then (t.readOpening .flowSequenceStart cs).bind endToken
  else if c = '\x7b' then (t.readOpening .flowMappingStart cs).bind endToken
  else if c = ']' then (t.readClosing .flowSequenceEnd cs).bind endToken
  else if c = '\x7d' then (t.readClosing .flowMappingEnd cs).bind endToken
  else if c = ',' then (t.readFlowEntry cs).bind endToken
  else if c = '-' && endsWord next then t.readBlockEntry cs
  else if c = '?' && indicates then (t.readKey cs).bind endToken
  else if c = ':' && indicates then (t.readValue cs).bind endToken
  else if c = '*' then
    (t.readWord (t.window.pass false cs)
      ((readAnchor? cs).map fun (name, rest) => (.alias name, rest))).bind endToken
  else if c = '&' then
    (t.readWord (t.window.pass false cs)
      ((readAnchor? cs).map fun (name, rest) => (.anchor name, rest))).bind endToken
  else if c = '!' then (t.readWord (t.window.pass true cs) (readTag? t.rest)).bind endToken
  else if c = '|' && !t.inFlow then t.readBlockScalar true cs
  else if c = '>' && !t.inFlow then t.readBlockScalar false cs
  else if c = '\'' then
    (t.readWord (t.window.passQuoted c cs) (scalarToken (singleQuoted cs))).bind endToken
  else if c = '"' then
    (t.readWord (t.window.passQuoted c cs) (scalarToken (doubleQuoted cs))).bind endToken
  else if startsPlain t.inFlow t.rest then t.readPlainScalar
  else none

/-- Reads one more token, and those that indentation puts in front of it.  The
longest indicators, the document markers, are looked at as a whole, with what
follows them. -/
def readMore (t : Tokens) : Option Tokens :=
  (skipSpacing t.inFlow t.keyAllowed false .start t.window t.rest).bind fun s =>
    (s.window.lookAhead 4 s.rest).bind fun w =>
      let t : Tokens := { t with keyAllowed := s.keyAllowed, window := w, rest := s.rest }
      let t := t.unroll t.place.column
      match t.rest with
      | [] => none
      | c :: cs =>
        if c.char = endChar then t.readEnd c
        else if c.column = 0 && c.char = '%' then
          (readDirective? cs).bind fun (token, rest) =>
            (t.window.pass true cs rest).bind fun w => (t.through w).readMarker token rest
        else if startsMarker '-' t.rest then t.readMarker .documentStart (t.rest.drop 3)
        else if startsMarker '.' t.rest then t.readMarker .documentEnd (t.rest.drop 3)
        else t.readToken c.char cs

/-! ## Handing out tokens -/

/-- The level at which the first token of the queue may start a key. -/
def awaitedLevel? (t : Tokens) : Option Nat :=
  t.awaited.lookup t.taken

/-- Reads tokens until the first one of the queue can be handed out; `fuel`
bounds their number. -/
def demandFrom : Nat → Tokens → Option Tokens
  | 0, _ => none
  | fuel + 1, t =>
    if t.queue.length < 3 then t.readMore.bind (demandFrom fuel)
    else
      match t.awaitedLevel?.bind fun level => (t.keyAt? level).map fun k => (level, k) with
      | none => some t
      | some (level, k) =>
        if !k.possible then some t
        else if k.isStale t.place then
          if k.required then none else some (t.setKey level { k with possible := false })
        else t.readMore.bind (demandFrom fuel)

/-- Reads tokens until the first one of the queue can be handed out.  Each of
them takes a character, but for those at the end of the stream. -/
def demand (t : Tokens) : Option Tokens :=
  demandFrom (t.size + 4) t

/-- Takes the first token of the queue.  It is settled that it starts no
key. -/
def take (t : Tokens) : Tokens :=
  { t.settle t.taken with queue := t.queue.drop 1, taken := t.taken + 1 }

/-- The tokens of a text. -/
def ofText (text : String) : Tokens :=
  let (blocks, whole) := blocks text.toList
  { rest := cellsFrom whole ⟨0, 0, 0⟩ blocks.flatten, window := .ofBlocks blocks whole }

end Tokens

end SecdMachine.Yaml
