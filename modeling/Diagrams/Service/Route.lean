import Diagrams.Text.Blank
import Diagrams.Text.Lines

/-!
# Routes

* `Route` — what can be asked for.
* `Route.path`, `Route.methods` — where, and by which methods.
* `Route.ofPath?` — the route of a path. Slashes and one newline at its end do not matter.
-/

namespace Diagrams.Service

/-- What can be asked for. -/
inductive Route where
  | index
  | health
  | parse
  | validate
  | drawio
  | markdown
  | preview
  /-- The description of the service, for programs. -/
  | schema
  /-- The description with a form for each request. -/
  | console
  /-- The page to which logins lead back. -/
  | login
  /-- The description for reading. -/
  | reference
  deriving DecidableEq, Repr

namespace Route

/-- All routes. -/
def all : List Route :=
  [index, health, parse, validate, drawio, markdown, preview, schema, console, login, reference]

/-- The path of a route. -/
def path : Route → String
  | index => "/"
  | health => "/api/health"
  | parse => "/api/parse"
  | validate => "/api/validate"
  | drawio => "/api/convert/drawio"
  | markdown => "/api/convert/markdown"
  | preview => "/api/preview"
  | schema => "/openapi.json"
  | console => "/docs"
  | login => "/docs/oauth2-redirect"
  | reference => "/redoc"

/-- The method that asks for the head of an answer only. -/
def headMethod : String := "HEAD"

/-- The methods of a route. -/
def methods : Route → List String
  | index | health => ["GET"]
  | parse | validate | drawio | markdown | preview => ["POST"]
  | schema | console | login | reference => ["GET", headMethod]

/-- The route that has exactly the path. One newline at the end is overlooked. -/
def exactly? (path : List Char) : Option Route :=
  all.find? fun r => r.path.toList == Text.chomp path

/-- The route of a path. Slashes at the end of a path that leads nowhere are overlooked. -/
def ofPath? (path : List Char) : Option Route :=
  exactly? path <|> exactly? (Text.dropTrailing (· == '/') path)

end Route

end Diagrams.Service
