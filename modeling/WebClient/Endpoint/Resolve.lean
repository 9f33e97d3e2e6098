import WebClient.Endpoint.Parse

/-!
# Resolving locations

A redirect gives the next URL as a reference, which is read against the endpoint that sent it. An
absolute URL and one without a scheme are read like any URL; every other reference keeps the
scheme, the host and the port, and changes the path and the query alone. Dot segments are taken
out of a path that the reference gives, never out of one it keeps.
-/

namespace WebClient.Endpoint

/-- The segments that remain when those in `rest` are added to `kept`, latest first: a dot stands
for the segment before it, two dots take that segment away, and one of them in last place leaves
an empty segment, so that the path still ends with a slash. -/
def keepSegments (kept : List (List Char)) : List (List Char) → List (List Char)
  | [] => kept.reverse
  | segment :: rest =>
    let close (kept : List (List Char)) := if rest.isEmpty then [] :: kept else kept
    if segment = ['.'] then keepSegments (close kept) rest
    else if segment = ['.', '.'] then keepSegments (close kept.tail) rest
    else keepSegments (segment :: kept) rest

/-- A path, with its query, without dot segments; the query stays as it is. -/
def removeDotSegments (target : List Char) : List Char :=
  let path := target.takeWhile (· ≠ '?')
  let query := target.dropWhile (· ≠ '?')
  '/' :: ['/'].intercalate (keepSegments [] (path.splitOn '/').tail) ++ query

def dropQuery (path : List Char) : List Char :=
  path.takeWhile (· ≠ '?')

def directory (path : List Char) : List Char :=
  match Text.splitLast? '/' path with
  | some (before, _) => before ++ ['/']
  | none => ['/']

/-- The path, with its query, that a reference without scheme, authority and fragment names. -/
def resolvePath (base : List Char) (reference : List Char) : List Char :=
  match reference with
  | [] => base
  | '/' :: _ => removeDotSegments reference
  | '?' :: _ => dropQuery base ++ reference
  | _ => removeDotSegments (directory (dropQuery base) ++ reference)

/-- The endpoint that a location names when `base` sent it. A location that holds a colon and two
slashes anywhere is read as a URL. -/
def resolve (base : Endpoint) (location : String) : Except UrlError Endpoint :=
  let cs := Text.trimChars location.toList
  match Text.splitMarker? [':', '/', '/'] cs, cs with
  | some _, _ => parse (String.ofList cs)
  | none, '/' :: '/' :: rest => parse (base.scheme.name ++ "://" ++ String.ofList rest)
  | none, _ =>
    .ok { base with path := String.ofList (resolvePath base.path.toList (dropFragment cs)) }

end WebClient.Endpoint
