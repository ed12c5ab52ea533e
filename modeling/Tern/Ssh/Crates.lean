import Tern.Ssh.KnownHosts

/-! What the file code relies on in the crates it calls, and a reference that meets it. -/

namespace Tern.KnownHosts

open Text

/-- The characters of DNS names and IP literals, scope ids included. -/
def hostChar (c : Char) : Bool :=
  c.isAlphanum || c == '.' || c == ':' || c == '_' || c == '%' || c == '-'

/-- The characters of a recorded name, which may put the host in brackets. -/
def nameChar (c : Char) : Bool :=
  hostChar c || c == '[' || c == ']'

/-- A name the file can record as it stands. -/
def PlainName (name : String) : Prop :=
  name.toList ≠ [] ∧ ∀ c ∈ name.toList, nameChar c = true

/-- Names are plain ASCII. -/
theorem nameChar_ascii {c : Char} (name : nameChar c = true) : c.toNat < 128 := by
  simp only [nameChar, hostChar, Char.isAlphanum, Bool.or_eq_true, beq_iff_eq] at name
  -- Each range of letters or digits ends below the bound.
  have bound : ∀ low high : UInt32, high.toNat < 128 → low ≤ c.val ∧ c.val ≤ high →
      c.toNat < 128 := by
    intro low high small inside
    have ordered : c.val.toNat ≤ high.toNat := inside.2
    exact Nat.lt_of_le_of_lt ordered small
  rcases name with (((((((letter | digit) | rfl) | rfl) | rfl) | rfl) | rfl) | rfl) | rfl
  · rcases Bool.or_eq_true_iff.mp letter with upper | lower
    · exact bound 65 90 (by decide) (of_decide_eq_true upper)
    · exact bound 97 122 (by decide) (by simpa using Bool.and_eq_true_iff.mp lower)
  · exact bound 48 57 (by decide) (by simpa using Bool.and_eq_true_iff.mp digit)
  all_goals decide

/-- The characters that mean something to a line, a pattern or a marker. -/
def specialChars : List Char := ['#', '@', '|', ',', '!', '*', '?']

set_option maxRecDepth 2000 in
/-- A name is visible and holds none of the special characters. -/
theorem nameChar_plain {c : Char} (name : nameChar c = true) :
    isWhitespace c = false ∧ c ∉ specialChars := by
  -- Below the ASCII bound every code can be looked at.
  have all : ∀ code < 128, nameChar (Char.ofNat code) = true →
      isWhitespace (Char.ofNat code) = false ∧ Char.ofNat code ∉ specialChars := by
    decide
  have plain := all c.toNat (nameChar_ascii name)
  rw [Char.ofNat_toNat] at plain
  exact plain name

/-- What the file code takes for granted about the lines it writes. -/
structure CrateLaws {Key : Type} (crates : Crates Key) : Prop where
  /-- A plain name and an encoded key parse back to the two of them. -/
  readsPlain : ∀ name key part, PlainName name → opensshKeyPart crates key = .ok part →
    ∃ comment, crates.parse (name ++ " " ++ part) =
      some ⟨none, .patterns [name], ⟨key.keyData, comment⟩⟩
  /-- A hashed name and an encoded key parse back to the salt, the hash and the key. -/
  readsHashed : ∀ name salt key part, opensshKeyPart crates key = .ok part →
    ∃ comment, crates.parse (hashPattern crates name (some salt) ++ " " ++ part) =
      some ⟨none, .hashedName salt (crates.hmacSha1 salt name.toUTF8), ⟨key.keyData, comment⟩⟩
  /-- Base64 is written without white space. -/
  visibleBase64 : ∀ bytes, ∀ c ∈ (crates.base64 bytes).toList, isWhitespace c = false
  /-- No two names share a hash under one salt. -/
  hmacInjective : ∀ salt (left right : String),
    crates.hmacSha1 salt left.toUTF8 = crates.hmacSha1 salt right.toUTF8 → left = right

namespace Reference

/-- A key in its encoded form. -/
structure EncodedKey where
  algorithm : String
  data : String
  deriving DecidableEq, Repr

/-- The fixture key of the file's own tests. -/
def hostKeyA : EncodedKey :=
  ⟨"ssh-ed25519", "AAAAC3NzaC1lZDI1NTE5AAAAIBafBvkEp3yDaHJuOCYn0eBYToa0SymKUTE/3CDxKjuw"⟩

/-- The other fixture key of its algorithm. -/
def hostKeyB : EncodedKey :=
  ⟨"ssh-ed25519", "AAAAC3NzaC1lZDI1NTE5AAAAIAH9vuNTw1q4zuAJCy1tb22F4ORqLKOgojxAlE3FapCx"⟩

/-- The algorithm names a key may carry. -/
def knownAlgorithms : List String :=
  ["ssh-ed25519", "ssh-rsa", "ecdsa-sha2-nistp256", "ecdsa-sha2-nistp384", "ecdsa-sha2-nistp521"]

/-- Whether an algorithm is known and its material can stand as one field of a line. -/
def wellFormed (algorithm data : List Char) : Bool :=
  knownAlgorithms.contains (String.ofList algorithm) && !data.isEmpty &&
    data.all fun c => !isWhitespace c

/-- The text before and after the first of a character. -/
def splitOnce (c : Char) : List Char → Option (List Char × List Char)
  | [] => none
  | head :: rest =>
    if head = c then some ([], rest)
    else (splitOnce c rest).map fun parts => (head :: parts.1, parts.2)

/-- The marker, if the line opens with one, and what follows it. -/
def readMarker (line : List Char) : Option (Option Marker × List Char) :=
  if line.head? = some '@' then
    (splitOnce ' ' line).bind fun parts =>
      if parts.1 = "@cert-authority".toList then some (some .certAuthority, parts.2)
      else if parts.1 = "@revoked".toList then some (some .revoked, parts.2)
      -- Any other word behind the sign makes the line malformed.
      else none
  else some (none, line)

/-- Bytes written with one character each, standing in for base64. -/
def encode (bytes : List UInt8) : List Char :=
  bytes.map fun byte => Char.ofNat (byte.toNat + 0x100)

/-- The bytes that were written. -/
def decode (chars : List Char) : List UInt8 :=
  chars.map fun c => UInt8.ofNat (c.toNat - 0x100)

/-- The comma separated patterns, where a comma at the end adds none. -/
def splitTerminator (chars : List Char) : List String :=
  let pieces := List.splitOn ',' chars
  let pieces := if pieces.getLast? = some [] then pieces.dropLast else pieces
  pieces.map String.ofList

/-- The hosts a line names. -/
def readPatterns (chars : List Char) : Option HostPatterns :=
  match chars with
  | [] => none
  | '|' :: '1' :: '|' :: rest =>
    (splitOnce '|' rest).map fun parts => .hashedName (decode parts.1) (decode parts.2)
  | _ => some (.patterns (splitTerminator chars))

/-- The key behind the hosts, with whatever follows it as a comment. -/
def readKey (chars : List Char) : Option (PublicKey EncodedKey) :=
  match fieldsFrom [] chars with
  | algorithm :: data :: rest =>
    if wellFormed algorithm data then
      some ⟨⟨String.ofList algorithm, String.ofList data⟩,
        String.ofList (List.intercalate [' '] rest)⟩
    else none
  | _ => none

/-- Reading the characters of one trimmed line as an entry. -/
def parseChars (line : List Char) : Option (Entry EncodedKey) := do
  let (marker, line) ← readMarker line
  let (hosts, key) ← splitOnce ' ' line
  let hostPatterns ← readPatterns hosts
  let publicKey ← readKey key
  return ⟨marker, hostPatterns, publicKey⟩

/-- Writing a key in the OpenSSH one-line form. -/
def toOpenssh (key : PublicKey EncodedKey) : Except String String :=
  if wellFormed key.keyData.algorithm.toList key.keyData.data.toList then
    .ok (key.keyData.algorithm ++ " " ++ key.keyData.data ++
      if key.comment.toList.isEmpty then "" else " " ++ key.comment)
  else .error "encoding error"

/-- The fingerprints of the fixture keys, with the encoded material standing in for other hashes. -/
def fingerprint (key : EncodedKey) : String :=
  if key = hostKeyA then "SHA256:iimnQ7BKK+CrMk0z6eCI1v5cDHtAMZrd1VlSM4OeViM"
  else if key = hostKeyB then "SHA256:WmV8yJb/V6ZfthrZmWsECZbXtj2Sq/iSOomCRa49daM"
  else "SHA256:" ++ key.data

/-- Host patterns in the form a line holds them. -/
def patternsToString : HostPatterns → String
  | .patterns list => String.ofList (List.intercalate [','] (list.map String.toList))
  | .hashedName salt hash =>
    "|1|" ++ String.ofList (encode salt) ++ "|" ++ String.ofList (encode hash)

/-- The reference, in which a keyed hash spells out its salt and its name. -/
def crates : Crates EncodedKey where
  algorithm := EncodedKey.algorithm
  fingerprint := fingerprint
  parse := fun line => parseChars line.toList
  toOpenssh := toOpenssh
  patternsToString := patternsToString
  hmacSha1 := fun salt name => salt ++ name.data.toList
  base64 := fun bytes => String.ofList (encode bytes)

/-- One line's characters as an entry. -/
def entryOf (line : List Char) : Option (Entry EncodedKey) :=
  let trimmed := trimChars line
  if trimmed.isEmpty || trimmed.head? == some '#' then none else parseChars trimmed

/-- The numbered entries of a text can be read off its characters. -/
theorem parsedEntries_ofList (chars : List Char) :
    parsedEntries crates (String.ofList chars) =
      (lineChunks chars).zipIdx.filterMap fun indexed =>
        (entryOf (stripEnding indexed.1)).map fun entry => (indexed.2 + 1, entry) := by
  -- Each line goes through the same trimming and tests on either side.
  have line : ∀ text : List Char, parseEntry crates (String.ofList text) = entryOf text := by
    intro text
    simp [parseEntry, entryOf, trim, crates]
  unfold parsedEntries lines
  rw [String.toList_ofList]
  simp only [List.zipIdx_map, List.filterMap_map, Function.comp_def, Prod.map, id, line]

/-- A line that trusts the fixture key. -/
def trustingLine : String :=
  "plain.example.com ssh-ed25519 AAAAC3NzaC1lZDI1NTE5AAAAIBafBvkEp3yDaHJuOCYn0eBYToa0SymKUTE/3CDxKjuw\n"

/-- A line that revokes the fixture key. -/
def revokingLine : String :=
  "@revoked plain.example.com ssh-ed25519 AAAAC3NzaC1lZDI1NTE5AAAAIBafBvkEp3yDaHJuOCYn0eBYToa0SymKUTE/3CDxKjuw\n"

/-- What the trusting line says. -/
def trustingEntry : Entry EncodedKey :=
  ⟨none, .patterns ["plain.example.com"], ⟨hostKeyA, ""⟩⟩

/-- What the revoking line says. -/
def revokingEntry : Entry EncodedKey :=
  ⟨some .revoked, .patterns ["plain.example.com"], ⟨hostKeyA, ""⟩⟩

set_option maxRecDepth 10000 in
/-- The trusting line parses to its entry. -/
theorem trustingLine_parsed : parsedEntries crates trustingLine = [(1, trustingEntry)] :=
  (parsedEntries_ofList _).trans rfl

set_option maxRecDepth 10000 in
/-- The revoking line parses to its entry. -/
theorem revokingLine_parsed : parsedEntries crates revokingLine = [(1, revokingEntry)] :=
  (parsedEntries_ofList _).trans rfl

section Laws

/-- What is written for a byte is visible and no separator. -/
theorem encode_visible {bytes : List UInt8} {c : Char} (member : c ∈ encode bytes) :
    isWhitespace c = false ∧ c ≠ '|' ∧ c ≠ ' ' := by
  obtain ⟨byte, -, rfl⟩ := List.mem_map.mp member
  -- There are only so many bytes, and each is looked at.
  have all : ∀ code < 256, isWhitespace (Char.ofNat (code + 0x100)) = false ∧
      Char.ofNat (code + 0x100) ≠ '|' ∧ Char.ofNat (code + 0x100) ≠ ' ' := by
    decide +kernel
  exact all byte.toNat byte.toNat_lt

/-- Written bytes read back. -/
theorem decode_encode (bytes : List UInt8) : decode (encode bytes) = bytes := by
  -- Shifting a code up and down again gives the code back.
  have all : ∀ code < 256, (Char.ofNat (code + 0x100)).toNat - 0x100 = code := by
    decide +kernel
  induction bytes with
  | nil => rfl
  | cons byte rest ih =>
    simp only [encode, decode, List.map_cons] at ih ⊢
    rw [all byte.toNat byte.toNat_lt, UInt8.ofNat_toNat, ih]

/-- Text free of a character is split at the first one behind it. -/
theorem splitOnce_append {c : Char} {front : List Char} (free : c ∉ front) (back : List Char) :
    splitOnce c (front ++ c :: back) = some (front, back) := by
  -- The split is at the first of its kind, and there is none before this one.
  induction front with
  | nil => simp [splitOnce]
  | cons head rest ih =>
    have other : head ≠ c := fun same => free (by simp [same])
    rw [List.cons_append, splitOnce, if_neg other,
      ih (fun inside => free (List.mem_cons_of_mem _ inside))]
    rfl

/-- A well-formed key is two visible fields. -/
theorem visible_of_wellFormed {algorithm data : List Char}
    (formed : wellFormed algorithm data = true) :
    (algorithm ≠ [] ∧ ∀ c ∈ algorithm, isWhitespace c = false) ∧
      data ≠ [] ∧ ∀ c ∈ data, isWhitespace c = false := by
  simp only [wellFormed, Bool.and_eq_true, List.contains_iff_mem] at formed
  -- The known algorithm names are all visible.
  have names : ∀ name ∈ knownAlgorithms,
      name.toList ≠ [] ∧ name.toList.all (fun c => !isWhitespace c) = true := by
    decide
  have known := names _ formed.1.1
  rw [String.toList_ofList] at known
  exact ⟨⟨known.1, by simpa using known.2⟩, by simpa using formed.1.2, by simpa using formed.2⟩

/-- A well-formed key is read back from its two fields. -/
theorem readKey_fields {algorithm data : List Char} (formed : wellFormed algorithm data = true) :
    readKey (algorithm ++ ' ' :: data) =
      some ⟨⟨String.ofList algorithm, String.ofList data⟩, ""⟩ := by
  obtain ⟨⟨named, namedVisible⟩, occupied, visible⟩ := visible_of_wellFormed formed
  simp [readKey, fieldsFrom_cons named namedVisible, fieldsFrom_last occupied visible, formed]

/-- The part of a line that holds the key is its algorithm and its material. -/
theorem opensshKeyPart_eq {key : PublicKey EncodedKey} {part : String}
    (encoded : opensshKeyPart crates key = .ok part) :
    wellFormed key.keyData.algorithm.toList key.keyData.data.toList = true ∧
      part.toList = key.keyData.algorithm.toList ++ ' ' :: key.keyData.data.toList := by
  by_cases formed : wellFormed key.keyData.algorithm.toList key.keyData.data.toList = true
  · refine ⟨formed, ?_⟩
    obtain ⟨⟨named, namedVisible⟩, occupied, visible⟩ := visible_of_wellFormed formed
    -- Whatever comment follows, the first two fields are the algorithm and the material.
    have fields : ∃ rest, splitWhitespace (key.keyData.algorithm ++ " " ++ key.keyData.data ++
        (if key.comment.toList.isEmpty then "" else " " ++ key.comment)) =
          key.keyData.algorithm :: key.keyData.data :: rest := by
      by_cases bare : key.comment.toList.isEmpty = true
      · refine ⟨[], ?_⟩
        simp [splitWhitespace, bare, fieldsFrom_cons named namedVisible,
          fieldsFrom_last occupied visible]
      · refine ⟨splitWhitespace key.comment, ?_⟩
        simp [splitWhitespace, bare, fieldsFrom_cons named namedVisible,
          fieldsFrom_cons occupied visible]
    -- The part is made of those two.
    obtain ⟨rest, fields⟩ := fields
    simp only [opensshKeyPart, crates, toOpenssh, formed, if_true, fields, Except.ok.injEq]
      at encoded
    simp [← encoded]
  · -- A key that is not well formed is refused before anything is written.
    simp [opensshKeyPart, crates, toOpenssh, formed] at encoded

/-- A line of visible hosts and a well-formed key parses to the two of them. -/
theorem parseChars_line {hosts algorithm data : List Char} {patterns : HostPatterns}
    (unmarked : hosts.head? ≠ some '@') (occupied : hosts ≠ []) (single : ' ' ∉ hosts)
    (named : readPatterns hosts = some patterns) (formed : wellFormed algorithm data = true) :
    parseChars (hosts ++ ' ' :: (algorithm ++ ' ' :: data)) =
      some ⟨none, patterns, ⟨⟨String.ofList algorithm, String.ofList data⟩, ""⟩⟩ := by
  -- The line opens with its hosts, so no marker is read off it.
  have marker : readMarker (hosts ++ ' ' :: (algorithm ++ ' ' :: data)) =
      some (none, hosts ++ ' ' :: (algorithm ++ ' ' :: data)) := by
    rw [readMarker, List.head?_append_of_ne_nil _ occupied, if_neg unmarked]
  simp [parseChars, marker, splitOnce_append single, named, readKey_fields formed]

/-- A plain name is read as the only pattern. -/
theorem readPatterns_plain {name : String} (plain : PlainName name) :
    readPatterns name.toList = some (.patterns [name]) := by
  -- A plain name holds no comma, so it is one pattern.
  have comma : ',' ∉ name.toList := by
    intro inside
    exact (nameChar_plain (plain.2 _ inside)).2 (by decide)
  have whole : splitTerminator name.toList = [name] := by
    simp [splitTerminator, List.splitOn_eq_singleton comma, plain.1]
  unfold readPatterns
  split
  · -- A plain name is not empty.
    rename_i empty
    exact absurd empty plain.1
  · -- A name never opens with the hash prefix.
    rename_i rest hashed
    exact absurd (plain.2 '|' (by simp [hashed])) (by decide)
  · rw [whole]

/-- The reference does what the file code relies on. -/
theorem laws : CrateLaws crates where
  readsPlain := by
    intro name key part plain encoded
    obtain ⟨formed, chars⟩ := opensshKeyPart_eq encoded
    -- Neither the marker sign nor a blank can stand in a plain name.
    have head : name.toList.head? ≠ some '@' := by
      intro sign
      exact (nameChar_plain (plain.2 _ (List.mem_of_mem_head? sign))).2 (by decide)
    have blank : ' ' ∉ name.toList := by
      intro inside
      exact absurd (nameChar_plain (plain.2 _ inside)).1 (by decide)
    refine ⟨"", ?_⟩
    simp [crates, chars, parseChars_line head plain.1 blank (readPatterns_plain plain) formed]
  readsHashed := by
    intro name salt key part encoded
    obtain ⟨formed, chars⟩ := opensshKeyPart_eq encoded
    refine ⟨"", ?_⟩
    -- The salt and the hash stand between bars, which neither of them contains.
    have bars : '|' ∉ encode salt := fun inside => (encode_visible inside).2.1 rfl
    have named : readPatterns
        ('|' :: '1' :: '|' :: (encode salt ++ '|' :: encode (salt ++ name.toUTF8.data.toList))) =
          some (.hashedName salt (salt ++ name.toUTF8.data.toList)) := by
      simp [readPatterns, splitOnce_append bars, decode_encode]
    -- The hashed form is a single field, because what is written for bytes holds no blank.
    have single : ' ' ∉ '|' :: '1' :: '|' ::
        (encode salt ++ '|' :: encode (salt ++ name.toUTF8.data.toList)) := by
      intro inside
      simp only [List.mem_cons, List.mem_append] at inside
      rcases inside with bar | one | bar | salted | bar | hashed
      · exact absurd bar (by decide)
      · exact absurd one (by decide)
      · exact absurd bar (by decide)
      · exact (encode_visible salted).2.2 rfl
      · exact absurd bar (by decide)
      · exact (encode_visible hashed).2.2 rfl
    have parsed := parseChars_line (by simp) (by simp) single named formed
    simpa [crates, chars, hashPattern] using parsed
  visibleBase64 := by
    intro bytes c member
    exact (encode_visible (by simpa [crates] using member)).1
  hmacInjective := by
    intro salt left right same
    -- The reference hash spells the name out behind the salt, so equal hashes spell equal names.
    have bytes := List.append_cancel_left same
    exact String.toByteArray_inj.mp (ByteArray.ext (Array.toList_inj.mp bytes))

end Laws

end Reference

end Tern.KnownHosts
