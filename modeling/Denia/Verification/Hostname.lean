/-
  Denia.Verification.Hostname — `validate_hostname`
  (`src/verification/validation.rs`), on the characters of the input.

  A byte of a UTF-8 string that is not ASCII is never alphanumeric nor a hyphen,
  so the per-byte checks of the source are per-character checks here; a label's
  length is counted in bytes there, and in characters here only once every
  character has been seen to be ASCII.
-/
import Mathlib.Algebra.Ring.Nat

namespace Denia.Verification

/-- `HostnameError`. -/
inductive HostnameError where
  | empty
  | invalidCharacter
  | notHostname
  | notFqdn
  deriving DecidableEq

/-- `char::is_whitespace`: the Unicode property `White_Space`. -/
def isWhitespace (c : Char) : Bool :=
  let n := c.toNat
  (9 ≤ n && n ≤ 13) || n == 32 || n == 0x85 || n == 0xA0 || n == 0x1680 ||
    (0x2000 ≤ n && n ≤ 0x200A) || n == 0x2028 || n == 0x2029 || n == 0x202F || n == 0x205F ||
    n == 0x3000

/-- `str::trim`. -/
def trim (s : List Char) : List Char :=
  ((s.dropWhile isWhitespace).reverse.dropWhile isWhitespace).reverse

/-- `str::split('.')`. -/
def labels : List Char → List (List Char)
  | [] => [[]]
  | c :: cs =>
      if c = '.' then [] :: labels cs
      else
        match labels cs with
        | [] => [[c]]
        | l :: ls => (c :: l) :: ls

/-- The number of bytes of a character in UTF-8. -/
def byteLength (s : List Char) : Nat := (s.map Char.utf8Size).sum

/-- `is_ascii_alphanumeric`. -/
def isAsciiAlphanumeric (c : Char) : Bool := c.isAlphanum

/-- `Ipv4Addr::from_str` accepts the octet: one to three digits, no leading zero, at
most 255. -/
def isOctet (l : List Char) : Bool :=
  !l.isEmpty && l.length ≤ 3 && l.all Char.isDigit && (l.length == 1 || l.head? != some '0') &&
    l.foldl (fun n c => 10 * n + (c.toNat - '0'.toNat)) 0 ≤ 255

/-- `parse::<IpAddr>()` accepts: with every colon rejected before, only the dotted
form of IPv4 is left. -/
def isIpAddr (s : List Char) : Bool := (labels s).length == 4 && (labels s).all isOctet

/-- The check of one label. -/
def labelOk (l : List Char) : Bool :=
  !l.isEmpty && byteLength l ≤ 63 &&
    (l.head?.any isAsciiAlphanumeric && l.getLast?.any isAsciiAlphanumeric) &&
    l.all fun c => (isAsciiAlphanumeric c || c == '-') && !c.isUpper

/-- The checks of `validate_hostname`, in order, on the trimmed input. -/
def checkHostname (s : List Char) : Except HostnameError Unit :=
  if s.isEmpty then .error .empty
  else if s.contains '\x60' || s.contains '\n' || s.contains '\r' then .error .invalidCharacter
  else if s.contains '/' || s.contains ':' || s.contains ' ' then .error .notHostname
  else if isIpAddr s then .error .notHostname
  else if (labels s).length < 2 then .error .notFqdn
  else if (labels s).all labelOk then .ok ()
  else .error .invalidCharacter

/-- A hostname that `validate_hostname` returns. -/
structure Hostname where
  name : String
  checked : checkHostname name.toList = .ok ()
  deriving DecidableEq

/-- `validate_hostname`. -/
def validateHostname (input : String) : Except HostnameError Hostname :=
  match h : checkHostname (trim input.toList) with
  | .error e => .error e
  | .ok () => .ok ⟨String.ofList (trim input.toList), by rw [String.toList_ofList]; exact h⟩

/-! ## The characters of a hostname. -/

/-- A character is a dot or stands in a label. -/
theorem mem_labels {s : List Char} {c : Char} (hc : c ∈ s) : c = '.' ∨ ∃ l ∈ labels s, c ∈ l := by
  induction s with
  | nil => cases hc
  | cons d ds ih =>
    unfold labels
    by_cases hd : d = '.'
    · rw [if_pos hd]
      rcases List.mem_cons.mp hc with rfl | hc
      · exact .inl hd
      · rcases ih hc with h | ⟨l, hl, hcl⟩
        · exact .inl h
        · exact .inr ⟨l, List.mem_cons_of_mem _ hl, hcl⟩
    · rw [if_neg hd]
      cases hlabels : labels ds with
      | nil =>
        rcases List.mem_cons.mp hc with rfl | hc
        · exact .inr ⟨[c], List.mem_cons_self, List.mem_cons_self⟩
        · rcases ih hc with h | ⟨l, hl, -⟩
          · exact .inl h
          · simp [hlabels] at hl
      | cons l =>
        rcases List.mem_cons.mp hc with rfl | hc
        · exact .inr ⟨c :: l, List.mem_cons_self, List.mem_cons_self⟩
        · rcases ih hc with h | ⟨m, hm, hcm⟩
          · exact .inl h
          · rw [hlabels] at hm
            rcases List.mem_cons.mp hm with rfl | hm
            · exact .inr ⟨d :: m, List.mem_cons_self, List.mem_cons_of_mem _ hcm⟩
            · exact .inr ⟨m, List.mem_cons_of_mem _ hm, hcm⟩

/-- **No hostname has an upper-case letter.** -/
theorem Hostname.not_isUpper (h : Hostname) {c : Char} (hc : c ∈ h.name.toList) :
    c.isUpper = false := by
  have hall : (labels h.name.toList).all labelOk = true := by
    have hchecked := h.checked
    unfold checkHostname at hchecked
    repeat' split at hchecked
    all_goals first | assumption | cases hchecked
  rcases mem_labels hc with rfl | ⟨l, hl, hcl⟩
  · decide
  · have hlabel := List.all_eq_true.mp hall l hl
    unfold labelOk at hlabel
    simp only [Bool.and_eq_true] at hlabel
    have hchar := List.all_eq_true.mp hlabel.2 c hcl
    simp only [Bool.and_eq_true, Bool.not_eq_true'] at hchar
    exact hchar.2

end Denia.Verification
