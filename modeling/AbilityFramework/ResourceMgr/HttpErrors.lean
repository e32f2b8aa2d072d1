import AbilityFramework.Library.Json

/-! # Errors of requests

`handle_error_to_http`: what a request is answered with when its handler has thrown. -/

namespace AbilityFramework.ResourceMgr

open Library

structure ProblemDetail where
  status : Nat
  type : String
  title : String
  detail : String
  /-- `instance` is a keyword. -/
  occurrence : String
  deriving DecidableEq

def ProblemDetail.toJson (problem : ProblemDetail) : Json :=
  .object
    [("detail", .string problem.detail), ("instance", .string problem.occurrence), ("status", .integer problem.status),
      ("title", .string problem.title), ("type", .string problem.type)]

inductive HttpException where
  | problem (detail : ProblemDetail)
  | invalidArgument (message : String)
  | exception (message : String)

structure HttpReply where
  status : Nat := 200
  content : Json

def handleErrorToHttp (path : String) : HttpException → HttpReply
  | .problem detail =>
    { status := detail.status
      content := { detail with occurrence := if detail.occurrence = "" then path else detail.occurrence }.toJson }
  | .invalidArgument message => ⟨400, (ProblemDetail.mk 400 "exception" "invalid argument" message path).toJson⟩
  | .exception message => ⟨500, (ProblemDetail.mk 500 "exception" "exception" message path).toJson⟩

end AbilityFramework.ResourceMgr
