import IdentityProvider.Query.Shape
import IdentityProvider.Validation

/-
  The search: a text, and parameters that may be left out.  Others are refused.
-/

namespace IdentityProvider

/-- What a user is asked for. -/
inductive Prompt
  | none
  | login
  | selectAccount
  deriving DecidableEq, Repr

/-- The name of a prompt in the answer to a search. -/
def Prompt.label : Prompt → String
  | .none => "None"
  | .login => "Login"
  | .selectAccount => "SelectAccount"

/-- The names of the prompts in a query. -/
def Prompt.choices : List (String × Prompt) :=
  [("none", .none), ("login", .login), ("select_account", .selectAccount)]

/-- A search. -/
structure Search where
  q : String
  prompt : Option Prompt
  verbose : Option Bool
  page : Option Int
  deriving DecidableEq, Repr

namespace Search

/-- What has been read of a search. -/
structure Draft where
  q : Option String
  prompt : Option Prompt
  verbose : Option Bool
  page : Option Int
  deriving DecidableEq, Repr

/-- How a search is read. -/
def shape : Query.Shape Draft Search where
  empty := ⟨none, none, none, none⟩
  fields :=
    [.ofPlace "q" Draft.q (fun d v => { d with q := some v }) Query.Reader.text,
     .ofPlace "prompt" Draft.prompt (fun d v => { d with prompt := some v })
       (Query.Reader.choice Prompt.choices),
     .ofPlace "verbose" Draft.verbose (fun d v => { d with verbose := some v })
       Query.Reader.boolean,
     .ofPlace "page" Draft.page (fun d v => { d with page := some v })
       (Query.Reader.integer (-128) 127)]
  isClosed := true
  finish d := do return ⟨← Query.required "q" d.q, d.prompt, d.verbose, d.page⟩

/-- What is wrong with a search. -/
def report (s : Search) : Validation.Report :=
  .field "q" [Validation.length 1 (some 5) ⟨Validation.lengthCode, none⟩ s.q] ++
  .field "page" [s.page.bind (Validation.range (-3) 9 ⟨"bad_page", none⟩)]

end Search

end IdentityProvider
