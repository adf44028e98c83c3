import Scaffold.Text.Basic

/-!
The request methods that handlers answer.

| here | in the program |
| --- | --- |
| `ofText?`, `upper`, `lower` | `parse`, `as_str`, `lower` |
-/

namespace Scaffold

/-- A request method. -/
inductive HttpMethod where
  | get
  | post
  | put
  | delete
  | patch
  | head
  | options
  deriving DecidableEq, Inhabited

namespace HttpMethod

def all : List HttpMethod :=
  [.get, .post, .put, .delete, .patch, .head, .options]

/-- The method in lower case, as most routing libraries write it. -/
def lower : HttpMethod → String
  | .get => "get"
  | .post => "post"
  | .put => "put"
  | .delete => "delete"
  | .patch => "patch"
  | .head => "head"
  | .options => "options"

/-- The method in upper case, as requests carry it. -/
def upper : HttpMethod → String
  | .get => "GET"
  | .post => "POST"
  | .put => "PUT"
  | .delete => "DELETE"
  | .patch => "PATCH"
  | .head => "HEAD"
  | .options => "OPTIONS"

def ofText? (name : String) : Option HttpMethod :=
  all.find? (·.lower == Text.lowerAscii name)

end HttpMethod

end Scaffold
