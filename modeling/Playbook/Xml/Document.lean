import Playbook.Xml.Markup

/-!
# Well-formed XML documents

A document is one element, with nothing around it but an XML declaration in front, comments,
processing instructions and white space. Tags close in the order they open, prefixes stand for
namespaces that are declared, and no two attributes of an element have the same name in the same
namespace. Document type declarations are not accepted.
-/

namespace Playbook.Xml

/-! ## Namespaces -/

/-- The namespaces that prefixes stand for, the innermost declaration first. No prefix at all
stands for the default namespace. -/
abbrev Namespaces := List (List Char × List Char)

/-- The names of the two namespaces that are always there are paths on one server. -/
def reserved (path : String) : List Char := ("http:" ++ "//www.w3.org/" ++ path).toList

/-- The namespace of the prefix `xml`. -/
def xmlNamespace : List Char := reserved "XML/1998/namespace"

/-- The namespace of the prefix `xmlns`. -/
def xmlnsNamespace : List Char := reserved "2000/xmlns/"

/-- The prefix that declares namespaces. -/
def xmlns : List Char := ['x', 'm', 'l', 'n', 's']

/-- The prefix that needs no declaration. -/
def xml : List Char := ['x', 'm', 'l']

/-- Whether an attribute declares a namespace. -/
def Attribute.isDeclaration (a : Attribute) : Bool :=
  a.name.space = xmlns || a.name.localPart = xmlns

/-- The declarations among attributes; the namespaces that are always there keep their prefixes, and
a prefix is declared once. -/
def declarations? : List Attribute → Option Namespaces
  | [] => some []
  | a :: rest => do
    let others ← declarations? rest
    if !a.isDeclaration then return others
    else if a.value = xmlnsNamespace then none
    else if a.name.space = xmlns then
      if a.name.localPart = xml then
        if a.value = xmlNamespace then return others else none
      else if a.value = xmlNamespace ∨ (others.any fun d ↦ d.1 = a.name.localPart) then none
      else return (a.name.localPart, a.value) :: others
    else if a.value = xmlNamespace then none
    else return ([], a.value) :: others

/-- The namespace of a prefix. -/
def Namespaces.of? (namespaces : Namespaces) (space : List Char) : Option (List Char) :=
  (List.find? (fun d ↦ d.1 = space) namespaces).map Prod.snd

/-- The name of an attribute in its namespace. Without a prefix it is in none. -/
def Attribute.expanded? (namespaces : Namespaces) (a : Attribute) :
    Option (Option (List Char) × List Char) :=
  if a.name.space = [] then some (none, a.name.localPart)
  else if a.name.space = xml then some (some xmlNamespace, a.name.localPart)
  else (namespaces.of? a.name.space).map fun uri ↦ (some uri, a.name.localPart)

/-- The namespaces inside an element, if its tag is in order. -/
def inside? (outer : Namespaces) (name : QName) (attributes : List Attribute) :
    Option Namespaces := do
  let declared ← declarations? attributes
  let namespaces := declared ++ outer
  let names ← (attributes.filter (!·.isDeclaration)).mapM (·.expanded? namespaces)
  if name.space = xmlns then none
  else if name.space ≠ [] ∧ (namespaces.of? name.space).isNone then none
  else if names.Nodup then some namespaces
  else none

/-! ## Documents -/

/-- What follows the element whose start tag is read, where `opened` are the elements that are open,
the innermost first, with the namespaces inside of them. Fuel for as many steps as the text has
characters is enough. -/
def content? : (fuel : Nat) → (opened : List (QName × Namespaces)) → List Char →
    Option (List Char)
  | _, [], cs => some cs
  | 0, _, _ => none
  | fuel + 1, (name, namespaces) :: outer, cs => do
    if cs.isEmpty then none
    else
      match ← markup? cs with
      | (.content, rest) => content? fuel ((name, namespaces) :: outer) rest
      | (.open inner attributes empty, rest) =>
        let inside ← inside? namespaces inner attributes
        if empty then content? fuel ((name, namespaces) :: outer) rest
        else content? fuel ((inner, inside) :: (name, namespaces) :: outer) rest
      | (.close closed, rest) => if closed = name then content? fuel outer rest else none

/-- Reads an element. -/
def element? (cs : List Char) : Option (List Char) := do
  let (tag, rest) ← startTag? (← Text.after? ['<'] cs)
  match tag with
  | .open name attributes empty =>
    let inside ← inside? [] name attributes
    if empty then some rest else content? rest.length [(name, inside)] rest
  | _ => none

/-- Reads comments, processing instructions and white space. Fuel for as many steps as the text has
characters is enough. -/
def around? : (fuel : Nat) → List Char → Option (List Char)
  | 0, cs => some (skipSpace cs)
  | fuel + 1, cs =>
    match skipSpace cs with
    | '<' :: '!' :: '-' :: '-' :: rest => (comment? rest).bind (around? fuel)
    | '<' :: '?' :: rest => (instruction? rest).bind (around? fuel)
    | rest => some rest

/-- Reads an assignment if the text goes on with a word, and demands white space or the end of the
declaration after it. -/
def declared? (word : String) (last : Bool) (cs : List Char) : Option (List Char) :=
  if word.toList.isPrefixOf cs then do
    let (_, rest) ← assignment? cs
    if last ∨ rest.head?.all isSpace ∨ "?>".toList.isPrefixOf rest then some (skipSpace rest)
    else none
  else some cs

/-- Reads the XML declaration, if the text starts with one. -/
def declaration? (cs : List Char) : Option (List Char) :=
  match Text.after? "<?xml ".toList cs with
  | none => some cs
  | some rest => do
    let rest := skipSpace rest
    if !"version".toList.isPrefixOf rest then none
    else
      let rest ← declared? "version" false rest
      let rest ← declared? "encoding" false rest
      let rest ← declared? "standalone" true rest
      Text.after? "?>".toList rest

/-- Whether a text is a well-formed document. It may start with a byte order mark. -/
def isDocument (cs : List Char) : Bool :=
  let start := (Text.after? ['\ufeff'] cs).getD cs
  let rest := do
    let rest ← declaration? start
    let rest ← around? rest.length rest
    let rest ← element? rest
    around? rest.length rest
  rest = some []

end Playbook.Xml
