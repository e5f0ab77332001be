import Scaffold.Naming.Pattern
import Scaffold.Text.Search

/-!
Plurals of English words. Irregular and uncountable words are looked up; for all others the last rule
whose pattern is found changes the word. The written case of the word is kept.
-/

namespace Scaffold.Naming.Plural

def irregular : List (String × String) := [
  ("i", "we"), ("me", "us"), ("he", "they"), ("she", "they"), ("them", "them"),
  ("myself", "ourselves"), ("yourself", "yourselves"), ("itself", "themselves"),
  ("herself", "themselves"), ("himself", "themselves"), ("themself", "themselves"), ("is", "are"),
  ("was", "were"), ("has", "have"), ("this", "these"), ("that", "those"), ("my", "our"),
  ("its", "their"), ("his", "their"), ("her", "their"), ("echo", "echoes"), ("dingo", "dingoes"),
  ("volcano", "volcanoes"), ("tornado", "tornadoes"), ("torpedo", "torpedoes"), ("genus", "genera"),
  ("viscus", "viscera"), ("stigma", "stigmata"), ("stoma", "stomata"), ("dogma", "dogmata"),
  ("lemma", "lemmata"), ("schema", "schemata"), ("anathema", "anathemata"), ("ox", "oxen"),
  ("axe", "axes"), ("die", "dice"), ("yes", "yeses"), ("foot", "feet"), ("eave", "eaves"),
  ("goose", "geese"), ("tooth", "teeth"), ("quiz", "quizzes"), ("human", "humans"),
  ("proof", "proofs"), ("carve", "carves"), ("valve", "valves"), ("looey", "looies"),
  ("thief", "thieves"), ("groove", "grooves"), ("pickaxe", "pickaxes"), ("passerby", "passersby"),
  ("canvas", "canvases")]

def uncountable : List String := [
  "adulthood", "advice", "agenda", "aid", "aircraft", "alcohol", "ammo", "analytics", "anime",
  "athletics", "audio", "bison", "blood", "bream", "buffalo", "butter", "carp", "cash", "chassis",
  "chess", "clothing", "cod", "commerce", "cooperation", "corps", "debris", "diabetes", "digestion",
  "elk", "energy", "equipment", "excretion", "expertise", "firmware", "flounder", "fun", "gallows",
  "garbage", "graffiti", "hardware", "headquarters", "health", "herpes", "highjinks", "homework",
  "housework", "information", "jeans", "justice", "kudos", "labour", "literature", "machinery",
  "mackerel", "mail", "media", "mews", "moose", "music", "mud", "manga", "news", "only",
  "personnel", "pike", "plankton", "pliers", "police", "pollution", "premises", "rain", "research",
  "rice", "salmon", "scissors", "series", "sewage", "shambles", "shrimp", "software", "staff",
  "swine", "tennis", "traffic", "transportation", "trout", "tuna", "wealth", "welfare", "whiting",
  "wildebeest", "wildlife", "you"]

/-- A part of a replacement: a text, the text of a group, or the whole match. -/
inductive Piece where
  | text (s : String)
  | group (number : Nat)
  | whole
  deriving Repr

structure Rule where
  pattern : Pattern
  replacement : List Piece

open Pattern

/-- A word that ends in a group and one of several endings gets another ending. -/
def stem (stems endings : List String) (ending : String) : Rule :=
  ⟨.group 1 (words stems) ++ words endings ++ .finish, [.group 1, .text ending]⟩

/-- What the pattern finds at the end of a word gets an ending. -/
def extend (p : Pattern) (ending : String) : Rule :=
  ⟨.group 1 p ++ .finish, [.group 1, .text ending]⟩

/-- What the pattern finds at the end of a word stays as it is. -/
def keep (p : Pattern) : Rule := ⟨p ++ .finish, [.whole]⟩

/-- The rules; the last one found in a word counts. -/
def rules : List Rule := [
  ⟨optional (word "s") ++ .finish, [.text "s"]⟩,
  keep (.char .nonAscii),
  extend (noneOf "aeiou" ++ word "ese") "",
  ⟨.group 1 (words ["ax", "test"]) ++ word "is" ++ .finish, [.group 1, .text "es"]⟩,
  extend (firstOf [word "alias", noneOf "aou" ++ word "us", word "t" ++ oneOf "lm" ++ word "as",
    word "gas", word "ris"]) "es",
  ⟨.group 1 (word "e" ++ oneOf "mn" ++ word "u") ++ optional (word "s") ++ .finish,
    [.group 1, .text "s"]⟩,
  extend (firstOf [noneOf "l" ++ word "ias", oneOf "aeiou" ++ word "las", oneOf "ejzr" ++ word "as",
    oneOf "iu" ++ word "am"]) "",
  stem ["alumn", "syllab", "vir", "radi", "nucle", "fung", "cact", "stimul", "termin", "bacill",
    "foc", "uter", "loc", "strat"] ["us", "i"] "i",
  stem ["alumn", "alg", "vertebr"] ["a", "ae"] "ae",
  stem ["seraph", "cherub"] ["im", ""] "im",
  stem ["her", "at", "gr"] ["o"] "oes",
  stem ["agend", "addend", "millenni", "dat", "extrem", "bacteri", "desiderat", "strat", "candelabr",
    "errat", "ov", "symposi", "curricul", "automat", "quor"] ["a", "um"] "a",
  stem ["apheli", "hyperbat", "periheli", "asyndet", "noumen", "phenomen", "criteri", "organ",
    "prolegomen", "hedr", "automat"] ["a", "on"] "a",
  ⟨word "sis" ++ .finish, [.text "ses"]⟩,
  ⟨firstOf [.group 1 (words ["kni", "wi", "li"]) ++ word "fe",
      .group 2 (words ["ar", "l", "ea", "eo", "oa", "hoo"]) ++ word "f"] ++ .finish,
    [.group 1, .group 2, .text "ves"]⟩,
  ⟨.group 1 (firstOf [noneOf "aeiouy", word "qu"]) ++ word "y" ++ .finish,
    [.group 1, .text "ies"]⟩,
  ⟨.group 1 (noneOf "ch" ++ oneOf "ieo" ++ oneOf "ln") ++ word "ey" ++ .finish,
    [.group 1, .text "ies"]⟩,
  extend (words ["x", "ch", "ss", "sh", "zz"]) "es",
  stem ["matr", "cod", "mur", "sil", "vert", "ind", "append"] ["ix", "ex"] "ices",
  ⟨.wordEdge ++ .group 1 (firstOf [optional (word "tit") ++ word "m", word "l"]) ++
      words ["ice", "ouse"] ++ .finish,
    [.group 1, .text "ice"]⟩,
  stem ["pe"] ["rson", "ople"] "ople",
  stem ["child"] ["ren", ""] "ren",
  keep (word "eaux"),
  ⟨word "m" ++ oneOf "ae" ++ word "n" ++ .finish, [.text "men"]⟩,
  ⟨.start ++ word "thou" ++ .finish, [.text "you"]⟩,
  keep (word "pok" ++ oneOf "eé" ++ word "mon"),
  keep (noneOf "aeiou" ++ word "ese"),
  keep (word "deer"),
  keep (word "fish"),
  keep (word "measles"),
  keep (word "o" ++ oneOf "iu" ++ word "s"),
  keep (word "pox"),
  keep (word "sheep")]

/-- The text `t` written in the case of `model`. -/
def inCaseOf (model t : String) : String :=
  if model = t then t
  else if model = Text.lower model then Text.lower t
  else if model = Text.upper model then Text.upper t
  else
    match model.toList, t.toList with
    | m :: _, c :: rest =>
      if [m] = Text.upperChars [m] then .ofList (Text.upperChars [c] ++ Text.lowerChars rest)
      else Text.lower t
    | _, _ => Text.lower t

def Piece.write (found : Found) : Piece → List Char
  | .text s => s.toList
  | .group number => (found.groups.lookup number).getD []
  | .whole => found.matched

/-- The text that gives a replacement its case: the match, or the character before an empty one; at
the very beginning the last character of the word. -/
def caseModel (word : List Char) (found : Found) : List Char :=
  if found.matched.isEmpty then
    match found.before with
    | c :: _ => [c]
    | [] => word.getLast?.toList
  else found.matched

/-- The word as a rule changes it, if its pattern is found. -/
def Rule.apply? (rule : Rule) (word : List Char) : Option String :=
  (rule.pattern.search word).map fun found =>
    let new := String.ofList (rule.replacement.flatMap (Piece.write found))
    let new := inCaseOf (.ofList (caseModel word found)) new
    .ofList (found.before.reverse ++ new.toList ++ found.after)

/-- The plural of a word. -/
def of (word : String) : String :=
  if word.isEmpty then word
  else
    let token := Text.lower word
    if irregular.any fun (_, plural) => plural = token then inCaseOf word token
    else match irregular.reverse.lookup token with
      | some plural => inCaseOf word plural
      | none =>
        if uncountable.contains token then word
        else (rules.reverse.findSome? fun rule => rule.apply? word.toList).getD word

end Scaffold.Naming.Plural
