/-
  Letters with marks.

  A letter followed by a combining mark is the same as the letter that has the mark, where there is
  such a letter; that one is written.  Several marks join one after the other.

    * `join?`      the letter that a letter and a mark make;
    * `composed`   a text with its marks joined.
-/

namespace ServiceRegistry.Accents

/-! ## Marks -/

/-- The marks that join, each with small letters and what they become. -/
def marks : List (Char × String × String) :=
  [('\u0300', "aeiouünеиēōwâăêôơưyἀἁἐἑἠἡἰἱὀὁὐὑὠὡαεηιουωϊϋ",
      "àèìòùǜǹѐѝḕṑẁầằềồờừỳἂἃἒἓἢἣἲἳὂὃὒὓὢὣὰὲὴὶὸὺὼῒῢ"),
    ('\u0301', "aeiouyclnrszügåæøϊαεηιϋουωϒгкçēïkmõōpũwâăêôơưἀἁἐἑἠἡἰἱὀὁὐὑὠὡ",
      "áéíóúýćĺńŕśźǘǵǻǽǿΐάέήίΰόύώϓѓќḉḗḯḱḿṍṓṕṹẃấắếốớứἄἅἔἕἤἥἴἵὄὅὔὕὤὥ"),
    ('\u0302', "aeioucghjswyzạẹọ", "âêîôûĉĝĥĵŝŵŷẑậệộ"),
    ('\u0303', "anoiuvâăeêôơưy", "ãñõĩũṽẫẵẽễỗỡữỹ"),
    ('\u0304', "aeiouüäȧæǫöõȯyиуgḷṛαιυ", "āēīōūǖǟǡǣǭȫȭȱȳӣӯḡḹṝᾱῑῡ"),
    ('\u0306', "aegiouиужаеȩạαιυ", "ăĕğĭŏŭйўӂӑӗḝặᾰῐῠ"),
    ('\u0307', "cegzaobdfhmnprsśšṣtwxyſ", "ċėġżȧȯḃḋḟḣṁṅṗṙṡṥṧṩṫẇẋẏẛ"),
    ('\u0308', "aeiouyιυϒеіаәжзиоөэучыhõūwxt", "äëïöüÿϊϋϔёїӓӛӝӟӥӧӫӭӱӵӹḧṏṻẅẍẗ"),
    ('\u0309', "aâăeêioôơuưy", "ảẩẳẻểỉỏổởủửỷ"),
    ('\u030a', "auwy", "åůẘẙ"),
    ('\u030b', "ouу", "őűӳ"),
    ('\u030c', "cdelnrstzaiouügkʒjh", "čďěľňřšťžǎǐǒǔǚǧǩǯǰȟ"),
    ('\u030f', "aeioruѵ", "ȁȅȉȍȑȕѷ"),
    ('\u0311', "aeioru", "ȃȇȋȏȓȗ"),
    ('\u0313', "αεηιουωρ", "ἀἐἠἰὀὐὠῤ"),
    ('\u0314', "αεηιουωρ", "ἁἑἡἱὁὑὡῥ"),
    ('\u031b', "ou", "ơư"),
    ('\u0323', "bdhklmnrstvwzaeioơuưy", "ḅḍḥḳḷṃṇṛṣṭṿẉẓạẹịọợụựỵ"),
    ('\u0324', "u", "ṳ"),
    ('\u0325', "a", "ḁ"),
    ('\u0326', "st", "șț"),
    ('\u0327', "cgklnrstedh", "çģķļņŗşţȩḑḩ"),
    ('\u0328', "aeiuo", "ąęįųǫ"),
    ('\u032d', "delntu", "ḓḙḽṋṱṷ"),
    ('\u032e', "h", "ḫ"),
    ('\u0330', "eiu", "ḛḭṵ"),
    ('\u0331', "bdklnrtzh", "ḇḏḵḻṉṟṯẕẖ"),
    ('\u0342', "ἀἁἠἡἰἱὐὑὠὡαηιϊυϋω", "ἆἇἦἧἶἷὖὗὦὧᾶῆῖῗῦῧῶ"),
    ('\u3099', "かきくけこさしすせそたちつてとはひふへほうゝカキクケコサシスセソタチツテトハヒフヘホウワヰヱヲヽ",
      "がぎぐげござじずぜぞだぢづでどばびぶべぼゔゞガギグゲゴザジズゼゾダヂヅデドバビブベボヴヷヸヹヺヾ"),
    ('\u309a', "はひふへほハヒフヘホ", "ぱぴぷぺぽパピプペポ")]

/-- Whether a character is a mark on the one in front of it. -/
def isMark (c : Char) : Bool :=
  let n := c.toNat
  (0x300 ≤ n && n ≤ 0x36F) || (0x483 ≤ n && n ≤ 0x487) || (0x591 ≤ n && n ≤ 0x5BD)
    || (0x64B ≤ n && n ≤ 0x65F) || (0x20D0 ≤ n && n ≤ 0x20DC) || n = 0x3099 || n = 0x309A
    || (0xFE20 ≤ n && n ≤ 0xFE2F)

/-- The letter that a letter and a mark make. -/
def join? (c mark : Char) : Option Char :=
  (marks.lookup mark).bind fun (letters, joined) => (letters.toList.zip joined.toList).lookup c

/-! ## Texts -/

/-- Adds a character to a text, which stands in reverse. -/
def add (done : List Char) (c : Char) : List Char :=
  match done with
  | [] => [c]
  | d :: ds =>
    match join? d c with
    | some joined => joined :: ds
    | none => c :: d :: ds

/-- A text with its marks joined. -/
def composed (cs : List Char) : List Char := (cs.foldl add []).reverse

end ServiceRegistry.Accents
