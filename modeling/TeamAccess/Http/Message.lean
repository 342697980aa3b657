import TeamAccess.Json.Decode

/-!
# Requests and replies

A request is a method, a target, and a body with the media type it claims. A reply has a status
and, mostly, a JSON body: an object with `data` and `error`, one of which is null. Refusals that
are made before a request reaches its operation have no body.

A JSON body is refused with a status for each reason: no JSON claimed, too long, no JSON, another
form.
-/

namespace TeamAccess.Http

/-- The methods that operations are offered under. -/
inductive Method where
  | get
  | head
  | post
  | put
  | delete
  /-- Any method that no operation is offered under. -/
  | other
  deriving DecidableEq, Repr

/-- The method of a name. -/
def Method.ofName : String → Method
  | "GET" => get
  | "HEAD" => head
  | "POST" => post
  | "PUT" => put
  | "DELETE" => delete
  | _ => other

/-- A request. -/
structure Request where
  method : Method
  /-- The path and the query, as sent. -/
  target : String
  body : String
  contentType : Option String

/-- What a reply carries. -/
inductive Body where
  | none
  | text (s : String)
  | json (v : Json)

/-- A reply. -/
structure Reply where
  status : Nat
  body : Body

namespace Reply

/-- A reply without a body. -/
def bare (status : Nat) : Reply := ⟨status, .none⟩

/-- A reply with data. -/
def data (status : Nat) (v : Json) : Reply :=
  ⟨status, .json (.obj [("data", v), ("error", .null)])⟩

/-- A reply with an error message. -/
def error (status : Nat) (message : String) : Reply :=
  ⟨status, .json (.obj [("data", .null), ("error", .str message)])⟩

end Reply

/-! ## Media types -/

/-- Whether a character may stand in the names and values of a media type. -/
def isToken (c : Char) : Bool :=
  c.isAlphanum || "!#$%&'*+-.^_`|~".toList.contains c

/-- Whether a character may stand in a quoted value. -/
def isQuotable (c : Char) : Bool := 31 < c.toNat && c.toNat < 127

/-- The text after a quoted value whose opening quote has been read. The first character of the
value may be any, and the next quote ends it. -/
def afterQuoted : List Char → Option (List Char)
  | c :: rest =>
    if isQuotable c then
      match rest.dropWhile fun d => isQuotable d && d != '"' with
      | '"' :: rest => some (rest.dropWhile (· = ' '))
      | _ => none
    else none
  | [] => none

/-- Whether a text is a list of parameters: names, equals signs, and values, with semicolons
between them and blanks before the names. The fuel is the length of the text. -/
def parameters : Nat → List Char → Bool
  | 0, cs => cs.isEmpty
  | fuel + 1, cs =>
    match cs.dropWhile (· = ' ') with
    | [] => true
    | cs =>
      !(cs.takeWhile isToken).isEmpty &&
        match cs.dropWhile isToken with
        | '=' :: '"' :: rest =>
          match afterQuoted rest with
          | some [] => true
          | some (';' :: rest) => parameters fuel rest
          | _ => false
        | '=' :: rest =>
          match rest.dropWhile isToken with
          | [] => true
          | ';' :: more => !(rest.takeWhile isToken).isEmpty && parameters fuel more
          | _ => false
        | _ => false

/-- The parts of a subtype before and after its last plus sign, if it has one past its start. -/
def splitSuffix (subtype : List Char) : Option (List Char × List Char) :=
  let suffix := subtype.reverse.takeWhile (· != '+')
  match subtype.reverse.dropWhile (· != '+') with
  | '+' :: c :: main => some ((c :: main).reverse, suffix.reverse)
  | _ => none

/-- Whether a subtype is JSON, by itself or by its suffix. -/
def isJsonSubtype (subtype : List Char) : Bool :=
  match splitSuffix subtype with
  | some (main, suffix) => main = "json".toList || suffix = "json".toList
  | none => subtype = "json".toList

/-- Whether a media type is JSON: `application/json` or an application type with the suffix
`+json`, in letters of either case, with or without parameters. -/
def isJson (mediaType : String) : Bool :=
  let cs := mediaType.toList.map Char.toLower
  match cs.dropWhile isToken with
  | '/' :: rest =>
    cs.takeWhile isToken = "application".toList && isJsonSubtype (rest.takeWhile isToken) &&
      match rest.dropWhile isToken with
      | [] => true
      | ';' :: rest => parameters (rest.length + 1) rest
      | _ => false
  | _ => false

/-- How many bytes a body may have that is read as JSON. -/
def bodyLimit : Nat := 2097152

/-- The body is not too long to be read as JSON. -/
def Request.Fits (r : Request) : Prop := r.body.utf8ByteSize ≤ bodyLimit

instance (r : Request) : Decidable r.Fits := inferInstanceAs (Decidable (_ ≤ _))

/-- The value of a request's JSON body, or the refusal. The body is read to its end before it is
looked at as JSON. -/
def Request.json (r : Request) (dec : Decoder α) : Except Reply α :=
  if r.contentType.any isJson then
    if r.Fits then
      match Decode.text dec r.body.toList with
      | .ok a => .ok a
      | .error .text => .error (.bare 400)
      | .error .form => .error (.bare 422)
    else .error (.bare 413)
  else .error (.bare 415)

/-- **The request says a value**: its body is JSON by its type, and the value by its text. -/
structure Request.Says (r : Request) (dec : Decoder α) (a : α) : Prop where
  contentType : r.contentType.any isJson = true
  body : Decode.text dec r.body.toList = .ok a

namespace Request.Says

variable {r : Request} {dec : Decoder α} {a : α}

/-- What is said is read, unless the body is too long. -/
theorem json_eq (h : r.Says dec a) : r.json dec = if r.Fits then .ok a else .error (.bare 413) := by
  rw [json, if_pos h.contentType, h.body]

theorem json_of_fits (h : r.Says dec a) (hfits : r.Fits) : r.json dec = .ok a := by
  rw [h.json_eq, if_pos hfits]

/-- What is said at too great a length is refused. -/
theorem json_of_not_fits (h : r.Says dec a) (hlong : ¬ r.Fits) :
    r.json dec = .error (.bare 413) := by
  rw [h.json_eq, if_neg hlong]

end Request.Says

end TeamAccess.Http
