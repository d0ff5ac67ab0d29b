import SchemaForge.Name.Case
import SchemaForge.Text.WordChar

/-!
# Names made from a model name

A word keeps its form in the plural when it has no plural, has a listed plural of its own, or
follows the first rule whose pattern its end fits.  A rule replaces what follows the stem; the stem
starts with the word characters next to the fitting end, so that anything before them is dropped.

## Main definitions

* `CharPattern`, `PluralRule` — what a rule asks of the end of a word.
* `pluralRules` — the rules, most specific first.
* `Name.plural` — the plural of a word.
* `Name.serviceStem` — the stem of the file that holds a model's service.
* `Name.collection` — the name of all rows of a model.
* `Name.delegate` — the property of a database client that serves a model.
-/

namespace SchemaForge.Name

open Text

/-- What a rule asks of one character. -/
inductive CharPattern where
  /-- This character. -/
  | exactly (c : Char)
  /-- One of these characters. -/
  | oneOf (cs : List Char)
  /-- Any character but these. -/
  | noneOf (cs : List Char)

namespace CharPattern

/-- Whether a character fits. -/
def fits : CharPattern → Char → Bool
  | exactly d, c => c == d
  | oneOf cs, c => cs.contains c
  | noneOf cs, c => !cs.contains c

/-- A pattern for each character of a fixed text. -/
def text (s : String) : List CharPattern :=
  s.toList.map exactly

/-- The patterns of several fixed texts. -/
def texts (ss : List String) : List (List CharPattern) :=
  ss.map text

/-- Whether a text fits a row of patterns, character by character. -/
def fitAll : List CharPattern → List Char → Bool
  | [], [] => true
  | p :: ps, c :: cs => p.fits c && fitAll ps cs
  | _, _ => false

end CharPattern

/-- How the plural of a class of words is made.  A word of the class ends in one of the stem
ends followed by one of the tails. -/
structure PluralRule where
  /-- How the stem may end. -/
  stemEnds : List (List CharPattern)
  /-- What may follow the stem; it is replaced. -/
  tails : List String
  /-- What the plural has instead. -/
  ending : String

open CharPattern in
/-- The rules, of which the first that fits is used. -/
def pluralRules : List PluralRule :=
  [ ⟨texts ["eaux"], [""], ""⟩,
    ⟨texts ["child"], ["ren", ""], "ren"⟩,
    ⟨texts ["person", "people"], [""], "ople"⟩,
    ⟨texts ["mice", "mouse", "lice", "louse"], [""], "ice"⟩,
    ⟨texts ["matr", "cod", "mur", "sil", "vert", "ind", "append"], ["ix", "ex"], "ices"⟩,
    ⟨texts ["x", "ch", "ss", "sh", "zz"], [""], "es"⟩,
    ⟨texts ["xes", "ches", "sses", "shes", "zzes"], [""], ""⟩,
    ⟨[[noneOf ['c', 'h'], oneOf ['i', 'e', 'o'], oneOf ['l', 'n']]], ["ey"], "ies"⟩,
    ⟨[noneOf ['a', 'e', 'i', 'o', 'u', 'y']] :: texts ["qu"], ["y"], "ies"⟩,
    ⟨texts ["ar", "l", "ea", "eo", "oa", "hoo"], ["f"], "ves"⟩,
    ⟨texts ["kni", "wi", "li"], ["fe"], "ves"⟩,
    ⟨[[]], ["sis"], "ses"⟩,
    ⟨texts ["apheli", "hyperbat", "periheli", "asyndet", "noumen", "phenomen", "criteri",
      "organ", "prolegomen", "hedr", "automat"], ["a", "on"], "a"⟩,
    ⟨texts ["agend", "addend", "millenni", "dat", "extrem", "bacteri", "desiderat", "strat",
      "candelabr", "errat", "ov", "symposi", "curricul", "automat", "quor"], ["a", "um"], "a"⟩,
    ⟨texts ["her", "at", "gr"], ["o"], "oes"⟩,
    ⟨texts ["seraph", "cherub"], ["im", ""], "im"⟩,
    ⟨texts ["alumn", "alg", "vertebr"], ["a", "ae"], "ae"⟩,
    ⟨texts ["alumn", "syllab", "octop", "vir", "radi", "nucle", "fung", "cact", "stimul",
      "termin", "bacill", "foc", "uter", "loc", "strat"], ["us", "i"], "i"⟩,
    ⟨[noneOf ['l'] :: text "ias",
      oneOf ['a', 'e', 'i', 'o', 'u'] :: text "las",
      oneOf ['e', 'm', 'j', 'z', 'r'] :: text "as",
      oneOf ['i', 'u'] :: text "am"], [""], ""⟩,
    ⟨[[exactly 'e', oneOf ['m', 'n'], exactly 'u']], ["s", ""], "s"⟩,
    ⟨(noneOf ['a', 'o', 'u'] :: text "us") :: texts ["alias", "tlas", "gas", "ris"], [""],
      "es"⟩,
    ⟨texts ["ax", "test"], ["is"], "es"⟩,
    ⟨[noneOf ['a', 'e', 'i', 'o', 'u'] :: text "ese"], [""], ""⟩,
    ⟨[[]], ["s"], "s"⟩ ]

/-- Words without a plural. -/
def uncountable : List String :=
  ["accommodation", "adulthood", "advertising", "advice", "aggression", "aid", "air",
    "aircraft", "alcohol", "anger", "applause", "arithmetic", "assistance", "athletics",
    "bacon", "baggage", "beef", "biology", "blood", "botany", "bread", "butter", "carbon",
    "cardboard", "cash", "chalk", "chaos", "chess", "crossroads", "countryside", "dancing",
    "deer", "dignity", "dirt", "dust", "economics", "education", "electricity",
    "engineering", "enjoyment", "envy", "equipment", "ethics", "evidence", "evolution",
    "fame", "fiction", "flour", "flu", "food", "fuel", "fun", "furniture", "gallows",
    "garbage", "garlic", "genetics", "gold", "golf", "gossip", "grammar", "gratitude",
    "grief", "guilt", "gymnastics", "happiness", "hardware", "harm", "hate", "hatred",
    "health", "heat", "help", "homework", "honesty", "honey", "hospitality", "housework",
    "humour", "hunger", "hydrogen", "ice", "importance", "inflation", "information",
    "innocence", "iron", "irony", "jam", "jewelry", "judo", "karate", "knowledge", "lack",
    "laughter", "lava", "leather", "leisure", "lightning", "linguine", "linguini",
    "linguistics", "literature", "litter", "livestock", "logic", "loneliness", "luck",
    "luggage", "macaroni", "machinery", "magic", "management", "mankind", "marble",
    "mathematics", "mayonnaise", "measles", "methane", "milk", "money", "mud", "music",
    "mumps", "nature", "news", "nitrogen", "nonsense", "nurture", "nutrition", "obedience",
    "obesity", "oxygen", "pasta", "patience", "physics", "poetry", "pollution", "poverty",
    "pride", "psychology", "publicity", "punctuation", "quartz", "racism", "relaxation",
    "reliability", "research", "respect", "revenge", "rice", "rubbish", "rum", "safety",
    "scenery", "seafood", "seaside", "series", "shame", "sheep", "shopping", "sleep",
    "smoke", "smoking", "snow", "soap", "software", "soil", "spaghetti", "species", "steam",
    "stuff", "stupidity", "sunshine", "symmetry", "tennis", "thirst", "thunder", "timber",
    "traffic", "transportation", "trust", "underwear", "unemployment", "unity", "validity",
    "veal", "vegetation", "vegetarianism", "vengeance", "violence", "vitality", "warmth",
    "wealth", "weather", "welfare", "wheat", "wildlife", "wisdom", "yoga", "zinc", "zoology"]

/-- Words with a plural of their own. -/
def irregularPlurals : List (String × String) :=
  [("ox", "oxen"), ("man", "men"), ("woman", "women"), ("die", "dice"), ("yes", "yeses"),
    ("foot", "feet"), ("eave", "eaves"), ("goose", "geese"), ("tooth", "teeth"),
    ("quiz", "quizzes")]

/-- The stem of a word for one stem end and one tail: the fitting end less the tail, with the
word characters in front of it. -/
def stemFor (word : List Char) (stemEnd : List CharPattern) (tail : List Char) :
    Option (List Char) :=
  let front := word.take (word.length - (stemEnd.length + tail.length))
  let rest := word.drop front.length
  let fitting := rest.take stemEnd.length
  if CharPattern.fitAll stemEnd fitting && rest.drop stemEnd.length == tail then
    some ((front.reverse.takeWhile isWordChar).reverse ++ fitting)
  else none

/-- The stem of a word of a rule's class: of several, the one that starts first in the word,
which is the longest. -/
def PluralRule.stem? (rule : PluralRule) (word : List Char) : Option (List Char) :=
  let stems := rule.stemEnds.flatMap fun stemEnd =>
    rule.tails.filterMap fun tail => stemFor word stemEnd tail.toList
  stems.foldl (fun best stem =>
    match best with
    | some kept => if kept.length < stem.length then some stem else best
    | none => some stem) none

/-- The plural of a word by the rules. -/
def pluralByRule (word : List Char) : List PluralRule → List Char
  | [] => word ++ ['s']
  | rule :: rules =>
    match rule.stem? word with
    | some stem => stem ++ rule.ending.toList
    | none => pluralByRule word rules

/-- The plural of a word. -/
def plural (word : String) : String :=
  if uncountable.contains word then word
  else match irregularPlurals.lookup word with
    | some irregular => irregular
    | none => String.ofList (pluralByRule word.toList pluralRules)

/-! ### Names in generated code -/

/-- The stem of a service's file: the model name in small letters. -/
def serviceStem (model : String) : String :=
  String.ofList (lowercase model.toList)

/-- The name of all rows of a model, as in `getAllUsers`. -/
def collection (model : String) : String :=
  pascal (plural model)

/-- The property of a database client that serves a model: the name with a small first
letter. -/
def delegate (model : String) : String :=
  match model.toList with
  | [] => ""
  | c :: rest => String.ofList (lowercaseChar c ++ rest)

end SchemaForge.Name
