/-
DockerClone.Client.Print — what the client prints of a list reply.

The reply is not parsed: each value is looked for with `strstr` by its
key, in the whole text, and printed up to a stop character. How far the
key is skipped is a number written beside it. A key at the very end of
the text would let the pointer pass the terminator; here it stops there.
-/
import DockerClone.CLib.Search

namespace DockerClone.Client

open DockerClone.CLib

/-- `printf("%.*s" tail, (int)(end - start), start)`, from a start to the
stop character, when there is one. -/
def printUntil (start : List Char) (stop : Char) (tail : String) : List Char :=
  match strchr start stop with
  | some stopped => start.take (start.length - stopped.length) ++ tail.toList
  | none => []

/-- `start = strstr(json, key); if (start) { start += skip; … }`. -/
def printField (json : List Char) (key : String) (skip : Nat) (tail : String) : List Char :=
  match strstr json key.toList with
  | some found => printUntil (found.drop skip) '"' tail
  | none => []

/-- The same for a number, which ends at a comma or, where there is none
any more, at a brace. -/
def printNumber (json : List Char) (key : String) (skip : Nat) (tail : String) : List Char :=
  match strstr json key.toList with
  | some found =>
      let start := found.drop skip
      if (strchr start ',').isSome then printUntil start ',' tail else printUntil start '}' tail
  | none => []

/-- The two heading lines of `print_containers_json`. -/
def containerHeadings : List Char :=
  "CONTAINER ID    IMAGE    COMMAND    CREATED    STATUS\n".toList
    ++ "----------------------------------------------------\n".toList

/-- `print_containers_json`: the text it prints. -/
def printContainersJson (json : List Char) : List Char :=
  containerHeadings
    ++ printField json "\"Id\":\"" 6 "    "
    ++ printField json "\"Names\":[\"" 11 "    "
    ++ printField json "\"Image\":\"" 9 "    "
    ++ printField json "\"Command\":\"" 11 "    "
    ++ printNumber json "\"Created\":" 10 "    "
    ++ printField json "\"Status\":\"" 10 "\n"

/-- The repository of an image: the text in the brackets up to a colon. -/
def printRepo (json : List Char) : List Char :=
  match strstr json "\"RepoTags\":[\"".toList with
  | some found => printUntil (found.drop 13) ':' "    "
  | none => []

/-- The tag: what follows that colon. -/
def printTag (json : List Char) : List Char :=
  match strstr json "\"RepoTags\":[\"".toList with
  | some found =>
      match strchr (found.drop 13) ':' with
      | some colon => printUntil (colon.drop 1) '"' "    "
      | none => []
  | none => []

/-- The two heading lines of `print_images_json`. -/
def imageHeadings : List Char :=
  "REPOSITORY    TAG    IMAGE ID    CREATED    SIZE\n".toList
    ++ "------------------------------------------------\n".toList

/-- `print_images_json`: the text it prints. -/
def printImagesJson (json : List Char) : List Char :=
  imageHeadings
    ++ printRepo json
    ++ printTag json
    ++ printField json "\"Id\":\"" 6 "    "
    ++ printNumber json "\"Created\":" 10 "    "
    ++ printNumber json "\"Size\":" 7 "\n"

end DockerClone.Client
