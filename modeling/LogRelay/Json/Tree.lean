import LogRelay.Json.Layer
import LogRelay.Json.Token

/-!
# What a reader meets in a JSON text

A text is arranged into a tree of values as far as it is well formed; where it is not, the tree ends in
what a reader meets there. Readers walk the tree from left to right, so the first fault they meet is the
first in the text, and a value of the wrong kind counts before any fault behind it.
-/

namespace LogRelay.Json

/-- What a reader meets at the place of a value, of an item, or of a member. -/
inductive Tree : Layer → Type where
  | null : Tree .value
  | bool (value : Bool) : Tree .value
  | number (spelled : NumberText) : Tree .value
  | tornNumber (atEnd : Bool) : Tree .value
  | string (spelled : StringText) : Tree .value
  /-- Something begins here that is no value. -/
  | torn (fault : Fault) : Tree .value
  /-- Nothing begins here. -/
  | absent (fault : Fault) : Tree .value
  | array (items : Tree .items) : Tree .value
  | object (members : Tree .members) : Tree .value
  | noItems : Tree .items
  | item (value : Tree .value) (rest : Tree .items) : Tree .items
  /-- The items end without a bracket. -/
  | itemsCut (fault : Fault) : Tree .items
  /-- The items end in a comma. -/
  | itemsDangling (fault : Fault) : Tree .items
  | noMembers : Tree .members
  | member (name : StringText) (value : Tree .value) (rest : Tree .members) : Tree .members
  /-- The members begin with something else than a name. -/
  | misnamed (found : Tree .value) : Tree .members
  /-- The members end without a bracket. -/
  | membersCut (fault : Fault) : Tree .members
  /-- The members end in a comma. -/
  | membersDangling (fault : Fault) : Tree .members

/-- What follows an item or a member, or opens the items or members. -/
inductive Place where
  | first
  | later
deriving DecidableEq, Repr

/-- The fault of a text that goes on wrongly or not at all. -/
def faultAt (tokens : List Token) : Fault :=
  match tokens with
  | [] => .truncated
  | _ :: _ => .malformed

mutual

/-- Arranges the tokens of a value; also gives the tokens behind it. -/
def arrangeValue : Nat → List Token → Tree .value × List Token
  | 0, _ => (.absent .truncated, [])
  | fuel + 1, tokens =>
      match tokens with
      | [] => (.absent .truncated, [])
      | .null :: rest => (.null, rest)
      | .bool value :: rest => (.bool value, rest)
      | .number spelled :: rest => (.number spelled, rest)
      | .tornNumber atEnd :: _ => (.tornNumber atEnd, [])
      | .string spelled :: rest => (.string spelled, rest)
      | .torn fault :: _ => (.torn fault, [])
      | .openArray :: rest =>
          let arranged := arrangeItems fuel .first rest
          (.array arranged.1, arranged.2)
      | .openObject :: rest =>
          let arranged := arrangeMembers fuel .first rest
          (.object arranged.1, arranged.2)
      | _ :: _ => (.torn .malformed, [])

/-- Arranges the tokens of an item and of those behind it. -/
def arrangeItem : Nat → List Token → Tree .items × List Token
  | 0, _ => (.itemsCut .truncated, [])
  | fuel + 1, tokens =>
      let head := arrangeValue fuel tokens
      let tail := arrangeItems fuel .later head.2
      (.item head.1 tail.1, tail.2)

/-- Arranges the tokens of the items behind a bracket or behind an item. -/
def arrangeItems : Nat → Place → List Token → Tree .items × List Token
  | 0, _, _ => (.itemsCut .truncated, [])
  | fuel + 1, place, tokens =>
      match place, tokens with
      | _, [] => (.itemsCut .truncated, [])
      | _, .closeArray :: rest => (.noItems, rest)
      | .later, .comma :: rest =>
          match rest with
          | [] => (.itemsDangling .truncated, [])
          | .closeArray :: _ => (.itemsDangling .malformed, [])
          | _ => arrangeItem fuel rest
      | .later, _ :: _ => (.itemsCut .malformed, [])
      | .first, _ => arrangeItem fuel tokens

/-- Arranges the tokens of a member behind its name and of those behind it. -/
def arrangeMember : Nat → StringText → List Token → Tree .members × List Token
  | 0, _, _ => (.membersCut .truncated, [])
  | fuel + 1, name, tokens =>
      match tokens with
      | .colon :: rest =>
          let head := arrangeValue fuel rest
          let tail := arrangeMembers fuel .later head.2
          (.member name head.1 tail.1, tail.2)
      | _ => (.member name (.absent (faultAt tokens)) .noMembers, [])

/-- Arranges the tokens of the members behind a brace or behind a member. -/
def arrangeMembers : Nat → Place → List Token → Tree .members × List Token
  | 0, _, _ => (.membersCut .truncated, [])
  | fuel + 1, place, tokens =>
      match place, tokens with
      | _, [] => (.membersCut .truncated, [])
      | _, .closeObject :: rest => (.noMembers, rest)
      | .later, .comma :: rest =>
          match rest with
          | .string name :: rest => arrangeMember fuel name rest
          | _ => (.membersDangling (faultAt rest), [])
      | .later, _ :: _ => (.membersCut .malformed, [])
      | .first, .string name :: rest => arrangeMember fuel name rest
      | .first, _ :: _ => (.misnamed (arrangeValue fuel tokens).1, [])

end

/-- A text as a reader meets it: a value, and whether something else follows it. -/
structure Document where
  /-- The value. -/
  root : Tree .value
  /-- Whether something follows. -/
  trailing : Bool

/-- The document that a text spells. Every step of the arrangement uses up a token or looks into one
more layer of the same token, so three steps for each token are enough. -/
def Document.ofText (text : String) : Document :=
  let tokens := tokens text.toList
  let arranged := arrangeValue (3 * tokens.length + 3) tokens
  ⟨arranged.1, arranged.2 ≠ []⟩

end LogRelay.Json
