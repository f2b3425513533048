/-
  Primacy.Registry.Content

  What a registry holds, how requests change it, and its form as a JSON document.  A registry in
  memory is a content; a registry on disk is a file that holds the document of one, and blank
  files count as the document of the empty one.  What a request does is said by what is looked up
  afterwards, and each kind of request has a lemma that it does so.
-/
import Primacy.Json.Shape
import Primacy.Keyed
import Primacy.Registry.Request
import Primacy.Text.Utf8

namespace Primacy.Registry

open Text (Reader)
open Text.Utf8 (Bytes)

structure Content where
  entries : Keyed String
  counters : Keyed Int
  deriving DecidableEq, Inhabited

namespace Content

def empty : Content := ⟨[], []⟩

/-- A counter that was never used is zero. -/
def counter (c : Content) (name : String) : Int := (c.counters.get? name).getD 0

/-- Answers a request.  A counter at its greatest value cannot be incremented. -/
def answer (c : Content) : (q : Request) → Except RegistryError (q.Answer × Content)
  | .put key value => .ok ((), { c with entries := c.entries.insert key value })
  | .get key => .ok (c.entries.get? key, c)
  | .increment name =>
    if c.counter name < Text.int64Max then
      .ok (c.counter name + 1, { c with counters := c.counters.insert name (c.counter name + 1) })
    else .error .brokenOff
  | .zero name => .ok ((), { c with counters := c.counters.insert name 0 })

/-! ## What a request does -/

/-- What a request is answered, and what it makes of a content: the key or counter that it names is
set, and all others stay. -/
def Does (c : Content) : (q : Request) → q.Answer → Content → Prop
  | .put key value, _, c' => c'.counters = c.counters ∧
      ∀ other, c'.entries.get? other = if other = key then some value else c.entries.get? other
  | .get key, a, c' => a = c.entries.get? key ∧ c' = c
  | .increment name, n, c' => n = c.counter name + 1 ∧ c'.entries = c.entries ∧
      ∀ other, c'.counters.get? other = if other = name then some n else c.counters.get? other
  | .zero name, _, c' => c'.entries = c.entries ∧
      ∀ other, c'.counters.get? other = if other = name then some 0 else c.counters.get? other

theorem does_put (c : Content) (key value : String) :
    ∃ c', c.answer (.put key value) = .ok ((), c') ∧ c.Does (.put key value) () c' :=
  ⟨_, rfl, rfl, fun other => Keyed.get?_insert _ _ other _⟩

theorem does_get (c : Content) (key : String) :
    ∃ a c', c.answer (.get key) = .ok (a, c') ∧ c.Does (.get key) a c' :=
  ⟨_, _, rfl, rfl, rfl⟩

theorem does_increment {c : Content} {name : String} (h : c.counter name < Text.int64Max) :
    ∃ n c', c.answer (.increment name) = .ok (n, c') ∧ c.Does (.increment name) n c' :=
  ⟨_, _, if_pos h, rfl, rfl, fun other => Keyed.get?_insert _ _ other _⟩

theorem increment_breaksOff {c : Content} {name : String} (h : ¬ c.counter name < Text.int64Max) :
    c.answer (.increment name) = .error .brokenOff :=
  if_neg h

theorem does_zero (c : Content) (name : String) :
    ∃ c', c.answer (.zero name) = .ok ((), c') ∧ c.Does (.zero name) () c' :=
  ⟨_, rfl, rfl, fun other => Keyed.get?_insert _ _ other _⟩

variable {c c' : Content} {q : Request}

/-- A request that is answered did what it asks for. -/
theorem does_of_answer {a : q.Answer} (h : c.answer q = .ok (a, c')) : c.Does q a c' := by
  cases q with
  | put key value =>
    obtain ⟨_, hanswer, hdoes⟩ := c.does_put key value
    cases hanswer.symm.trans h
    exact hdoes
  | get key =>
    obtain ⟨_, _, hanswer, hdoes⟩ := c.does_get key
    cases hanswer.symm.trans h
    exact hdoes
  | increment name =>
    by_cases hlt : c.counter name < Text.int64Max
    · obtain ⟨_, _, hanswer, hdoes⟩ := does_increment hlt
      cases hanswer.symm.trans h
      exact hdoes
    · cases (increment_breaksOff hlt).symm.trans h
  | zero name =>
    obtain ⟨_, hanswer, hdoes⟩ := c.does_zero name
    cases hanswer.symm.trans h
    exact hdoes

/-- Only a counter at its greatest value breaks a request off. -/
theorem answer_eq_error_iff {e : RegistryError} : c.answer q = .error e ↔
    e = .brokenOff ∧ ∃ name, q = .increment name ∧ ¬ c.counter name < Text.int64Max := by
  constructor
  · intro h
    cases q with
    | increment name =>
      by_cases hlt : c.counter name < Text.int64Max
      · obtain ⟨_, _, hanswer, -⟩ := does_increment hlt
        cases hanswer.symm.trans h
      · cases (increment_breaksOff hlt).symm.trans h
        exact ⟨rfl, name, rfl, hlt⟩
    | _ => cases h
  · rintro ⟨rfl, name, rfl, hmax⟩
    exact increment_breaksOff hmax

/-! ## The document -/

/-- The members of an object, each on a line of its own below `indent`. -/
def objectText (indent : String) (members : List (String × List Char)) : List Char :=
  if members.isEmpty then ['\x7b', '\x7d']
  else
    let line := fun (m : String × List Char) =>
      indent.toList ++ "  ".toList ++ Json.quoted m.1 ++ ": ".toList ++ m.2
    ['\x7b', '\n'] ++ List.intercalate [',', '\n'] (members.map line) ++
      '\n' :: indent.toList ++ ['\x7d']

/-- The document of a content. -/
def document (c : Content) : List Char :=
  objectText ""
    [("entries", objectText "  " (c.entries.map fun e => (e.1, Json.quoted e.2))),
     ("counters", objectText "  " (c.counters.map fun e => (e.1, (toString e.2).toList)))]

def fields : List (Json.Field Content) :=
  [{ name := "entries", required := false
     read := do
       let pairs ← Json.members Json.string
       return fun c => { c with entries := Keyed.ofPairs pairs } },
   { name := "counters", required := false
     read := do
       let pairs ← Json.members (Json.integer Text.int64Min Text.int64Max)
       return fun c => { c with counters := Keyed.ofPairs pairs } }]

/-- Reads a document. -/
def ofDocument (text : String) : Except RegistryError Content :=
  if Text.isBlankText text then .ok empty
  else match Json.read (Json.record fields empty) text with
    | .ok c => .ok c
    | .error fault => .error (.corrupted fault)

/-- The content of a registry file. -/
def ofBytes (bytes : Bytes) : Except RegistryError Content :=
  match Text.Utf8.decode? bytes with
  | none => .error (.file .notText)
  | some text => ofDocument text

/-- The bytes of a registry file. -/
def bytes (c : Content) : Bytes := Text.Utf8.encode (String.ofList c.document)

/-- Answers a request from the bytes of a registry file; the second component is what the file is
to hold from then on, if the request changes it. -/
def answerFile (file : Bytes) (q : Request) : Except RegistryError (q.Answer × Option Bytes) := do
  let c ← ofBytes file
  let (a, c) ← c.answer q
  return (a, if q.changes then some c.bytes else none)

end Content

end Primacy.Registry
