import Coupling.ClassFile.Descriptor

/-!
# Generic signatures

A signature is a descriptor with type arguments. A class type may be followed by arguments in angle
brackets and by nested classes after dots; a nested class is named by its enclosing classes with
dollar signs between. Names of type parameters, which occur in a leading section in angle brackets,
and references to type variables name no class.

The scan goes through the text once. It keeps the class type it is in, and the class types around
the open angle brackets.
-/

namespace Coupling.ClassFile

/-- The state of a scan through a signature. -/
structure SignatureScan where
  /-- The text still to be scanned. -/
  rest : List Char
  /-- The scan is in the leading section of type parameters. -/
  inParameters : Bool
  /-- The class type that is being read, in internal form. -/
  current : List Char
  /-- The class types around the open angle brackets, innermost first. -/
  enclosing : List (List Char)
  /-- The class types found, latest first. -/
  found : List (List Char)

namespace SignatureScan

/-- The characters that end a class name. -/
def endsName (c : Char) : Bool :=
  c == ';' || c == '<' || c == '.'

/-- The text from the next colon on, where the bound of a type parameter starts. -/
def fromColon (text : List Char) : List Char :=
  text.dropWhile (· != ':')

/-- The scan before the first character. A leading section of type parameters starts with the name
of one. -/
def start (text : List Char) : SignatureScan :=
  match text with
  | '<' :: rest => ⟨fromColon rest, true, [], [], []⟩
  | _ => ⟨text, false, [], [], []⟩

/-- Reads a class name, which comes after `outer`. -/
def takeName (scan : SignatureScan) (outer text : List Char) : SignatureScan :=
  let name := outer ++ text.takeWhile fun c => !endsName c
  { scan with
    rest := text.dropWhile fun c => !endsName c
    current := name
    found := name :: scan.found }

/-- After the end of a type in the section of type parameters, another type parameter may start with
its name, which runs to the next colon. -/
def afterType (scan : SignatureScan) (text : List Char) : List Char :=
  match text with
  | c :: _ =>
    if scan.inParameters && scan.enclosing.isEmpty && c != ':' && c != '>' then fromColon text
    else text
  | [] => []

/-- Reads one character and what belongs to it. -/
def step (scan : SignatureScan) : SignatureScan :=
  match scan.rest with
  | [] => scan
  | 'L' :: rest => scan.takeName [] rest
  | '.' :: rest => scan.takeName (scan.current ++ ['$']) rest
  | 'T' :: rest => { scan with rest := rest.dropWhile (· != ';') }
  | '<' :: rest =>
    { scan with rest, current := [], enclosing := scan.current :: scan.enclosing }
  | '>' :: rest =>
    match scan.enclosing with
    | outer :: enclosing => { scan with rest, current := outer, enclosing }
    | [] => { scan with rest, inParameters := false }
  | ';' :: rest => { scan with rest := scan.afterType rest }
  | _ :: rest => { scan with rest }

/-- Steps until the text is used up, at most `fuel` times. -/
def run : Nat → SignatureScan → SignatureScan
  | 0, scan => scan
  | fuel + 1, scan => if scan.rest.isEmpty then scan else run fuel scan.step

end SignatureScan

/-- The qualified names of the classes that a signature names. Every step uses up a character, so
there are at most as many steps as characters. -/
def signatureNames (signature : String) : List String :=
  let text := signature.toList
  ((SignatureScan.start text).run text.length).found.reverse.map qualified

end Coupling.ClassFile
