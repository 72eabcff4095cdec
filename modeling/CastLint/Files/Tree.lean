import CastLint.Files.Path

/-! A tree of directories with files and symbolic links. -/

namespace CastLint
namespace Files

inductive Content where
  | text (s : String)
  /-- Bytes that encode no text. -/
  | binary (bytes : ByteString)
deriving DecidableEq, Repr, Inhabited

def Content.ofBytes (bytes : ByteString) : Content :=
  match bytes.text? with
  | some s => .text s
  | none => .binary bytes

def Content.bytes : Content → ByteString
  | text s => s
  | binary bytes => bytes

def Content.shown : Content → String
  | text s => s
  | binary bytes => bytes.shown

inductive Entry where
  | file (content : Content)
  | link (target : ByteString)
  | directory (entries : List (ByteString × Entry))
deriving Inhabited

inductive AccessError where
  | notFound
  | notADirectory
  | isADirectory
  | tooManyLinks
  | notText
  | nameTooLong
  /-- What else the system says. -/
  | other (message : String)
deriving DecidableEq, Repr

def AccessError.message : AccessError → String
  | notFound => "No such file or directory (os error 2)"
  | notADirectory => "Not a directory (os error 20)"
  | isADirectory => "Is a directory (os error 21)"
  | tooManyLinks => "Too many levels of symbolic links (os error 40)"
  | notText => "stream did not contain valid UTF-8"
  | nameTooLong => "File name too long (os error 36)"
  | other message => message

def alter (name : ByteString) (change : Option Entry → Entry) :
    List (ByteString × Entry) → List (ByteString × Entry)
  | [] => [(name, change none)]
  | (n, e) :: es =>
    if n = name then (n, change (some e)) :: es else (n, e) :: alter name change es

namespace Entry

def isFile : Entry → Bool
  | file _ => true
  | _ => false

/-- The entry at a place, where links are not followed. -/
def get? : Entry → Place → Option Entry
  | e, [] => some e
  | directory entries, name :: place =>
    match entries.lookup name with
    | some e => e.get? place
    | none => none
  | _, _ :: _ => none

/-- Puts an entry at a place, and makes the directories on the way to it. -/
def put (new : Entry) : Place → Option Entry → Entry
  | [], _ => new
  | name :: place, some (directory entries) => directory (alter name (put new place) entries)
  | name :: place, _ => directory (alter name (put new place) [])

def makeDirectory (place : Place) (root : Entry) : Entry :=
  match root.get? place with
  | some _ => root
  | none => put (directory []) place (some root)

/-- Follows steps from a directory, and asks `follow` where to go on behind a link. -/
def walkWith (root : Entry) (follow : Place → List ByteString → Except AccessError Place) :
    (here : Place) → (steps : List ByteString) → Except AccessError Place
  | here, [] => .ok here
  | here, step :: rest =>
    match root.get? here with
    | some (directory entries) =>
      if step = "." then walkWith root follow here rest
      else if step = ".." then walkWith root follow here.dropLast rest
      else
        match entries.lookup step with
        | none => .error .notFound
        | some (link target) =>
          follow (if isAbsolute target then [] else here) (steps target ++ rest)
        | some _ => walkWith root follow (here ++ [step]) rest
    | _ => .error .notADirectory

/-- Follows steps from a directory through at most `links` links. -/
def walk (root : Entry) : (links : Nat) → (here : Place) → (steps : List ByteString) →
    Except AccessError Place
  | 0 => walkWith root fun _ _ => .error .tooManyLinks
  | links + 1 => walkWith root (walk root links)

def maxLinks : Nat := 40

def resolve (root : Entry) (here : Place) (path : ByteString) : Except AccessError Place :=
  if path = [] then .error .notFound
  else root.walk maxLinks (if isAbsolute path then [] else here) (steps path)

def find? (root : Entry) (here : Place) (path : ByteString) : Option Entry :=
  match root.resolve here path with
  | .ok place => root.get? place
  | .error _ => none

def holdsFile (root : Entry) (here : Place) (path : ByteString) : Bool :=
  (root.find? here path).any isFile

def read (root : Entry) (here : Place) (path : ByteString) : Except AccessError String :=
  match root.resolve here path with
  | .error e => .error e
  | .ok place =>
    match root.get? place with
    | some (file (.text s)) => .ok s
    | some (file (.binary _)) => .error .notText
    | some (directory _) => .error .isADirectory
    | _ => .error .notFound

def write (root : Entry) (here : Place) (path : ByteString) (content : Content) : Entry :=
  match root.resolve here path with
  | .ok place => put (file content) place (some root)
  | .error _ => root

end Entry

end Files
end CastLint
