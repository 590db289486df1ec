import Diagrams.Json.Basic
import Diagrams.Service.Route

/-!
# The description of the service

`Service.schema` — which routes the service has, what they are called and what kind of content they
answer with, as a record for programs. The routes that describe the service are not described.
-/

namespace Diagrams.Service

namespace Route

/-- The words of a route's name. -/
def words : Route → List String
  | index => ["index"]
  | health => ["health"]
  | parse => ["parse"]
  | validate => ["validate"]
  | drawio => ["convert", "drawio"]
  | markdown => ["convert", "markdown"]
  | preview => ["preview"]
  | schema => ["schema"]
  | console => ["console"]
  | login => ["login"]
  | reference => ["reference"]

/-- What a route does, where its name does not say it. -/
def about? : Route → Option String
  | parse => some "Parse Mermaid code and return the AST together with computed positions."
  | preview => some "Markdown documentation rendered as HTML."
  | _ => none

/-- The kind of content with which a route answers, and the form of the content. -/
def content : Route → String × Json
  | index | preview => ("text/html", .obj [("type", .str "string")])
  | _ => ("application/json", .obj [])

/-- The method of a route in small letters. -/
def methodWord (r : Route) : String := (r.methods.headD "").toLower

/-- The name by which programs call a route: its words, its path and its method. Whatever is no word
character in them becomes an underscore. -/
def operationId (r : Route) : String :=
  let name := ("_".intercalate r.words ++ r.path).toList.map fun c => if c.isAlphanum then c else '_'
  String.ofList name ++ "_" ++ r.methodWord

/-- The description of a route. -/
def description (r : Route) : Json :=
  let (type, form) := r.content
  let response := Json.obj [("description", .str "Successful Response"),
    ("content", .obj [(type, .obj [("schema", form)])])]
  .obj ([("summary", .str (" ".intercalate (r.words.map String.capitalize)))] ++
    (r.about?.toList.map fun s => ("description", .str s)) ++
    [("operationId", .str r.operationId), ("responses", .obj [("200", response)])])

end Route

/-- The routes that are described. -/
def describedRoutes : List Route :=
  [.index, .health, .parse, .validate, .drawio, .markdown, .preview]

/-- The description of the service. -/
def schema : Json :=
  .obj [("openapi", .str "3.1.0"),
    ("info", .obj [("title", .str "Mermaid Converter"), ("version", .str "0.1.0")]),
    ("paths", .obj (describedRoutes.map fun r => (r.path, .obj [(r.methodWord, r.description)])))]

end Diagrams.Service
