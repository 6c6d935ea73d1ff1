import OpenApiIR.Diagnostic.Basic
import OpenApiIR.Schema.TypeRef
import OpenApiIR.Text.LetterCase

/-! The resolved document: models with typed properties, endpoints with typed parameters, bodies and
responses, and the diagnostics of what was left out. -/

namespace OpenApiIR

structure Property where
  name : String
  type : TypeRef
  isRequired : Bool
  description : String
  deriving DecidableEq

structure Model where
  name : String
  properties : List Property
  description : String
  deriving DecidableEq

inductive Method where
  | get
  | post
  | put
  | patch
  | delete
  | head
  | options
  | trace
  deriving DecidableEq, Repr

namespace Method

def all : List Method := [get, post, put, patch, delete, head, options, trace]

def name : Method → String
  | .get => "GET"
  | .post => "POST"
  | .put => "PUT"
  | .patch => "PATCH"
  | .delete => "DELETE"
  | .head => "HEAD"
  | .options => "OPTIONS"
  | .trace => "TRACE"

def key (m : Method) : String := Text.lower m.name

def ofKey? (key : String) : Option Method :=
  let lowered := Text.lower key
  all.find? (·.key = lowered)

/-- The method that a text names once it is written in capital letters. -/
def ofName? (name : String) : Option Method :=
  let raised := Text.upper name
  all.find? (·.name = raised)

end Method

inductive Location where
  | query
  | header
  | path
  | cookie
  deriving DecidableEq, Repr

namespace Location

def all : List Location := [query, header, path, cookie]

def name : Location → String
  | .query => "query"
  | .header => "header"
  | .path => "path"
  | .cookie => "cookie"

def ofName? (s : String) : Option Location := all.find? (·.name = s)

end Location

structure Parameter where
  name : String
  location : Location
  type : TypeRef
  isRequired : Bool
  description : String
  deriving DecidableEq

structure RequestBody where
  type : TypeRef
  isRequired : Bool
  description : String
  contentTypes : List String
  deriving DecidableEq

structure Response where
  statusCode : String
  type : TypeRef
  description : String
  deriving DecidableEq

/-- Responses under their status codes, in order; no code occurs twice. -/
abbrev ResponseMap := List (String × Response)

namespace ResponseMap

/-- A code that is there already keeps its place and gets the new response. -/
def put : ResponseMap → String → Response → ResponseMap
  | [], k, r => [(k, r)]
  | (k', r') :: rest, k, r => if k' = k then (k, r) :: rest else (k', r') :: put rest k r

def ofPairs (rs : List (String × Response)) : ResponseMap := rs.foldl (fun m r => put m r.1 r.2) []

theorem codes_put (rs : ResponseMap) (k : String) (r : Response) :
    (put rs k r).map (·.1) = if k ∈ rs.map (·.1) then rs.map (·.1) else rs.map (·.1) ++ [k] := by
  induction rs with
  | nil => rfl
  | cons e rest ih =>
    by_cases h : e.1 = k
    · simp [put, h]
    · have h' : ¬ k = e.1 := fun h' => h h'.symm
      simp only [put, h, if_false, List.map_cons, ih, List.mem_cons, h', false_or]
      split <;> simp

end ResponseMap

structure Endpoint where
  path : String
  method : Method
  operationId : Option String
  summary : String
  description : String
  tags : List String
  parameters : List Parameter
  requestBody : Option RequestBody
  responses : ResponseMap
  deprecated : Bool
  deriving DecidableEq

structure ApiInfo where
  title : String
  version : String
  description : Option String
  deriving DecidableEq, Repr

def ApiInfo.untitled : ApiInfo := ⟨"Untitled API", "0.0.0", none⟩

structure IR where
  openapiVersion : Option String
  info : ApiInfo
  models : List Model
  endpoints : List Endpoint
  diagnostics : List Diagnostic
  deriving DecidableEq

namespace IR

def model? (ir : IR) (name : String) : Option Model := ir.models.find? (·.name = name)

def endpointAt? (ir : IR) (method : Method) (path : String) : Option Endpoint :=
  ir.endpoints.find? fun e => e.method = method ∧ e.path = path

/-- The first endpoint of a method, given by name, and a path. Without such a method it is an error.
-/
def endpoint? (ir : IR) (method path : String) : Except Problem (Option Endpoint) :=
  match Method.ofName? method with
  | none => .error (.unknownMethod (Text.upper method))
  | some m => .ok (ir.endpointAt? m path)

end IR

end OpenApiIR
