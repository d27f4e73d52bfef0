/-!
# Requests and errors

What the dependencies of a route read from a request, and the exceptions handlers raise.
-/

namespace ProRag

/-- An exception: its type name and its text. -/
structure PyError where
  name : String
  text : String
deriving DecidableEq, Repr

/-- What `except Exception` catches; a cancelled task is no `Exception`. -/
def PyError.isException (e : PyError) : Bool := e.name ≠ "CancelledError"

/-- `isinstance(exc, TimeoutError)`. -/
def PyError.isTimeout (e : PyError) : Bool := e.name = "TimeoutError"

/-- `_safe_error(exc)`. -/
def safeError (exc : PyError) : String :=
  exc.name ++ ": " ++ String.ofList (exc.text.toList.take 200)

/-- `HTTPException(status, detail)`; its text is what `str` gives. -/
def httpException (status : Nat) (detail : String) : PyError :=
  ⟨"HTTPException", toString status ++ ": " ++ detail⟩

/-- The credentials and the query parameter that the auth dependencies read.  A missing
`Authorization` header reads as the empty string. -/
structure Request where
  sessionCookie : Option String
  authorization : String
  collectionParam : Option String
deriving DecidableEq, Repr

end ProRag
