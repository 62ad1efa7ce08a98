import SimpleCdn.Lib.Text

/-!
# Quoted patterns

The renderer writes a security pattern between double quotes, behind a tilde, as the key of a map.
nginx reads a quoted word in two steps: it looks for the first quote that no backslash stands
before, and then takes the backslashes of the escapes away.  Reading gives back the pattern, and
goes on behind the quote the renderer wrote.
-/

namespace SimpleCdn.Nginx

/-! ### Quoted words -/

/-- The text up to the first unescaped quote, and the text behind that quote. -/
def scanQuoted : List Char → Option (List Char × List Char)
  | [] => none
  | '"' :: rest => some ([], rest)
  | '\\' :: c :: rest => (scanQuoted rest).map fun (word, rest) => ('\\' :: c :: word, rest)
  | c :: rest => (scanQuoted rest).map fun (word, rest) => (c :: word, rest)

/-- The word itself.  A backslash before any other character stays. -/
def unescapeQuoted : List Char → List Char
  | '\\' :: c :: rest =>
    if c = '"' ∨ c = '\'' ∨ c = '\\' then c :: unescapeQuoted rest
    else if c = 't' then '\t' :: unescapeQuoted rest
    else if c = 'r' then '\r' :: unescapeQuoted rest
    else if c = 'n' then '\n' :: unescapeQuoted rest
    else '\\' :: unescapeQuoted (c :: rest)
  | c :: rest => c :: unescapeQuoted rest
  | [] => []

/-- A word and what follows it, from behind its opening quote. -/
def readQuoted (cs : List Char) : Option (List Char × List Char) :=
  (scanQuoted cs).map fun (word, rest) => (unescapeQuoted word, rest)

/-! ### Writing a pattern -/

def escapeNginxQuotedPattern (pattern : List Char) : List Char :=
  Text.replaceAll ['"'] ['\\', '"'] (Text.replaceAll ['\\'] ['\\', '\\'] pattern)

/-- The key of a regular expression in a map. -/
def quotedKey (pattern : String) : List Char :=
  '~' :: escapeNginxQuotedPattern pattern.toList

/-- The line of `renderSecurityConfig` that maps the pattern of a policy to its ID. -/
def securityMapLine (pattern id : String) : List Char :=
  [' ', ' ', ' ', ' ', '"'] ++ quotedKey pattern ++ ['"', ' ', '"'] ++ id.toList ++
    ['"', ';', '\n']

/-- The two replacements meet no character twice: the quote is escaped after the backslashes. -/
theorem escapeNginxQuotedPattern_cons (c : Char) (cs : List Char) :
    escapeNginxQuotedPattern (c :: cs) =
      (if c = '\\' ∨ c = '"' then ['\\', c] else [c]) ++ escapeNginxQuotedPattern cs := by
  simp only [escapeNginxQuotedPattern, Text.replaceAll_singleton, List.flatMap_cons,
    List.flatMap_append]
  congr 1
  by_cases hslash : c = '\\'
  · rw [hslash]
    decide
  · by_cases hquote : c = '"'
    · rw [hquote]
      decide
    · simp [hslash, hquote]

theorem scanQuoted_plain {c : Char} {cs : List Char} (hslash : c ≠ '\\') (hquote : c ≠ '"') :
    scanQuoted (c :: cs) = (scanQuoted cs).map fun (word, rest) => (c :: word, rest) := by
  rw [scanQuoted.eq_def]
  split <;> simp_all

theorem unescapeQuoted_plain {c : Char} {cs : List Char} (hslash : c ≠ '\\') :
    unescapeQuoted (c :: cs) = c :: unescapeQuoted cs := by
  rw [unescapeQuoted.eq_def]
  split <;> simp_all

/-- The first unescaped quote behind an escaped pattern is the one that closes it. -/
theorem scanQuoted_escape (pattern rest : List Char) :
    scanQuoted (escapeNginxQuotedPattern pattern ++ '"' :: rest) =
      some (escapeNginxQuotedPattern pattern, rest) := by
  induction pattern with
  | nil => rfl
  | cons c cs ih =>
    rw [escapeNginxQuotedPattern_cons, List.append_assoc]
    split
    · -- the character is skipped with the backslash before it
      show (scanQuoted (escapeNginxQuotedPattern cs ++ '"' :: rest)).map _ = _
      rw [ih]
      rfl
    · next hplain =>
      rw [not_or] at hplain
      rw [List.singleton_append, scanQuoted_plain hplain.1 hplain.2, ih]
      rfl

theorem unescapeQuoted_escape (pattern : List Char) :
    unescapeQuoted (escapeNginxQuotedPattern pattern) = pattern := by
  induction pattern with
  | nil => rfl
  | cons c cs ih =>
    rw [escapeNginxQuotedPattern_cons]
    split
    · next hescaped =>
      rw [List.cons_append, List.singleton_append, unescapeQuoted, ih,
        if_pos (hescaped.elim (fun h => Or.inr (Or.inr h)) Or.inl)]
    · next hplain =>
      rw [not_or] at hplain
      rw [List.singleton_append, unescapeQuoted_plain hplain.1, ih]

theorem scanQuoted_quotedKey (pattern : String) (rest : List Char) :
    scanQuoted (quotedKey pattern ++ '"' :: rest) = some (quotedKey pattern, rest) := by
  rw [quotedKey, List.cons_append, scanQuoted_plain (by decide) (by decide), scanQuoted_escape]
  rfl

theorem readQuoted_quotedKey (pattern : String) (rest : List Char) :
    readQuoted (quotedKey pattern ++ '"' :: rest) = some ('~' :: pattern.toList, rest) := by
  rw [readQuoted, scanQuoted_quotedKey, quotedKey]
  simp only [Option.map_some, Option.some.injEq, Prod.mk.injEq, and_true]
  rw [unescapeQuoted_plain (by decide), unescapeQuoted_escape]

theorem drop_securityMapLine (pattern id : String) :
    (securityMapLine pattern id).drop 5 =
      quotedKey pattern ++ '"' :: ([' ', '"'] ++ id.toList ++ ['"', ';', '\n']) := by
  simp [securityMapLine]

/-- Whatever the pattern, no quote in it ends the key, and nginx reads the pattern itself behind
the tilde; in the line of the map it then goes on with the ID. -/
theorem security_pattern_quoted (pattern id : String) :
    (∀ rest, scanQuoted (quotedKey pattern ++ '"' :: rest) = some (quotedKey pattern, rest) ∧
      readQuoted (quotedKey pattern ++ '"' :: rest) = some ('~' :: pattern.toList, rest)) ∧
    readQuoted ((securityMapLine pattern id).drop 5) =
      some ('~' :: pattern.toList, [' ', '"'] ++ id.toList ++ ['"', ';', '\n']) := by
  refine ⟨fun rest => ⟨scanQuoted_quotedKey pattern rest, readQuoted_quotedKey pattern rest⟩, ?_⟩
  rw [drop_securityMapLine, readQuoted_quotedKey]

example : readQuoted ((securityMapLine "a\\\"b\\" "id").drop 5) =
    some ("~a\\\"b\\".toList, " \"id\";\n".toList) := by decide +kernel

end SimpleCdn.Nginx
