import MdxBuild.Text.Basic

/-!
# Character references

Markup spells characters by name or by number between an ampersand and a semicolon. What is no
reference stands for itself.
-/

namespace MdxBuild.Jsx

/-- The named characters, with their codes. -/
def namedCharacters : List (String × Nat) :=
  [("quot", 34), ("amp", 38), ("apos", 39), ("lt", 60), ("gt", 62), ("nbsp", 160), ("iexcl", 161),
    ("cent", 162), ("pound", 163), ("curren", 164), ("yen", 165), ("brvbar", 166), ("sect", 167),
    ("uml", 168), ("copy", 169), ("ordf", 170), ("laquo", 171), ("not", 172), ("shy", 173),
    ("reg", 174), ("macr", 175), ("deg", 176), ("plusmn", 177), ("sup2", 178), ("sup3", 179),
    ("acute", 180), ("micro", 181), ("para", 182), ("middot", 183), ("cedil", 184), ("sup1", 185),
    ("ordm", 186), ("raquo", 187), ("frac14", 188), ("frac12", 189), ("frac34", 190),
    ("iquest", 191), ("Agrave", 192), ("Aacute", 193), ("Acirc", 194), ("Atilde", 195),
    ("Auml", 196), ("Aring", 197), ("AElig", 198), ("Ccedil", 199), ("Egrave", 200),
    ("Eacute", 201), ("Ecirc", 202), ("Euml", 203), ("Igrave", 204), ("Iacute", 205),
    ("Icirc", 206), ("Iuml", 207), ("ETH", 208), ("Ntilde", 209), ("Ograve", 210), ("Oacute", 211),
    ("Ocirc", 212), ("Otilde", 213), ("Ouml", 214), ("times", 215), ("Oslash", 216),
    ("Ugrave", 217), ("Uacute", 218), ("Ucirc", 219), ("Uuml", 220), ("Yacute", 221),
    ("THORN", 222), ("szlig", 223), ("agrave", 224), ("aacute", 225), ("acirc", 226),
    ("atilde", 227), ("auml", 228), ("aring", 229), ("aelig", 230), ("ccedil", 231),
    ("egrave", 232), ("eacute", 233), ("ecirc", 234), ("euml", 235), ("igrave", 236),
    ("iacute", 237), ("icirc", 238), ("iuml", 239), ("eth", 240), ("ntilde", 241), ("ograve", 242),
    ("oacute", 243), ("ocirc", 244), ("otilde", 245), ("ouml", 246), ("divide", 247),
    ("oslash", 248), ("ugrave", 249), ("uacute", 250), ("ucirc", 251), ("uuml", 252),
    ("yacute", 253), ("thorn", 254), ("yuml", 255), ("OElig", 338), ("oelig", 339),
    ("Scaron", 352), ("scaron", 353), ("Yuml", 376), ("fnof", 402), ("circ", 710), ("tilde", 732),
    ("Alpha", 913), ("Beta", 914), ("Gamma", 915), ("Delta", 916), ("Epsilon", 917), ("Zeta", 918),
    ("Eta", 919), ("Theta", 920), ("Iota", 921), ("Kappa", 922), ("Lambda", 923), ("Mu", 924),
    ("Nu", 925), ("Xi", 926), ("Omicron", 927), ("Pi", 928), ("Rho", 929), ("Sigma", 931),
    ("Tau", 932), ("Upsilon", 933), ("Phi", 934), ("Chi", 935), ("Psi", 936), ("Omega", 937),
    ("alpha", 945), ("beta", 946), ("gamma", 947), ("delta", 948), ("epsilon", 949), ("zeta", 950),
    ("eta", 951), ("theta", 952), ("iota", 953), ("kappa", 954), ("lambda", 955), ("mu", 956),
    ("nu", 957), ("xi", 958), ("omicron", 959), ("pi", 960), ("rho", 961), ("sigmaf", 962),
    ("sigma", 963), ("tau", 964), ("upsilon", 965), ("phi", 966), ("chi", 967), ("psi", 968),
    ("omega", 969), ("thetasym", 977), ("upsih", 978), ("piv", 982), ("ensp", 8194),
    ("emsp", 8195), ("thinsp", 8201), ("zwnj", 8204), ("zwj", 8205), ("lrm", 8206), ("rlm", 8207),
    ("ndash", 8211), ("mdash", 8212), ("lsquo", 8216), ("rsquo", 8217), ("sbquo", 8218),
    ("ldquo", 8220), ("rdquo", 8221), ("bdquo", 8222), ("dagger", 8224), ("Dagger", 8225),
    ("bull", 8226), ("hellip", 8230), ("permil", 8240), ("prime", 8242), ("Prime", 8243),
    ("lsaquo", 8249), ("rsaquo", 8250), ("oline", 8254), ("frasl", 8260), ("euro", 8364),
    ("image", 8465), ("weierp", 8472), ("real", 8476), ("trade", 8482), ("alefsym", 8501),
    ("larr", 8592), ("uarr", 8593), ("rarr", 8594), ("darr", 8595), ("harr", 8596),
    ("crarr", 8629), ("lArr", 8656), ("uArr", 8657), ("rArr", 8658), ("dArr", 8659),
    ("hArr", 8660), ("forall", 8704), ("part", 8706), ("exist", 8707), ("empty", 8709),
    ("nabla", 8711), ("isin", 8712), ("notin", 8713), ("ni", 8715), ("prod", 8719), ("sum", 8721),
    ("minus", 8722), ("lowast", 8727), ("radic", 8730), ("prop", 8733), ("infin", 8734),
    ("ang", 8736), ("and", 8743), ("or", 8744), ("cap", 8745), ("cup", 8746), ("int", 8747),
    ("there4", 8756), ("sim", 8764), ("cong", 8773), ("asymp", 8776), ("ne", 8800),
    ("equiv", 8801), ("le", 8804), ("ge", 8805), ("sub", 8834), ("sup", 8835), ("nsub", 8836),
    ("sube", 8838), ("supe", 8839), ("oplus", 8853), ("otimes", 8855), ("perp", 8869),
    ("sdot", 8901), ("lceil", 8968), ("rceil", 8969), ("lfloor", 8970), ("rfloor", 8971),
    ("lang", 9001), ("rang", 9002), ("loz", 9674), ("spades", 9824), ("clubs", 9827),
    ("hearts", 9829), ("diams", 9830)]

/-- The number that digits of a base spell; a plus sign may stand before them. -/
def number? (base : Nat) (digit? : Char → Option Nat) (text : Text) : Option Nat :=
  let digits := (Text.after? ['+'] text).getD text
  if digits.isEmpty then none
  else digits.foldlM (fun value char => (digit? char).map (base * value + ·)) 0

/-- The value of a decimal digit. -/
def decimalDigit? (char : Char) : Option Nat :=
  if char.isDigit then some (char.toNat - 48) else none

/-- The value of a hexadecimal digit. -/
def hexadecimalDigit? (char : Char) : Option Nat :=
  let lower := char.toLower
  if 'a' ≤ lower && lower ≤ 'f' then some (lower.toNat - 87) else decimalDigit? char

/-- The character with a code. -/
def character? (code : Nat) : Option Char :=
  if code.isValidChar then some (Char.ofNat code) else none

/-- The character that a reference stands for, given what is between its ampersand and its
semicolon. -/
def reference? (word : Text) : Option Char :=
  match word with
  | '#' :: 'x' :: digits => (number? 16 hexadecimalDigit? digits).bind character?
  | '#' :: digits => (number? 10 decimalDigit? digits).bind character?
  | _ =>
    (namedCharacters.find? fun entry => entry.1.toList == word).bind fun entry =>
      character? entry.2

/-- The word behind an ampersand, up to the sign that may end a reference. -/
def referenceWord (text : Text) : Text :=
  text.takeWhile fun char => char != ';' && char != '&'

/-- The character that the reference at the start of a text stands for, and how long the reference
is behind its ampersand. -/
def startingReference? : Text → Option (Char × Nat)
  | '&' :: rest =>
    let word := referenceWord rest
    if (rest.drop word.length).head? = some ';' then
      (reference? word).map fun char => (char, word.length + 1)
    else none
  | _ => none

/-- The text with its references replaced by characters; `skip` characters of the reference found
last are still to be passed over. -/
def decodeFrom : (skip : Nat) → Text → Text
  | _, [] => []
  | skip + 1, _ :: rest => decodeFrom skip rest
  | 0, char :: rest =>
    match startingReference? (char :: rest) with
    | some (character, length) => character :: decodeFrom length rest
    | none => char :: decodeFrom 0 rest

/-- The text with its references replaced by characters. -/
def decodeReferences (text : Text) : Text :=
  decodeFrom 0 text

end MdxBuild.Jsx
