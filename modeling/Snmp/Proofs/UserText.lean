/-
  Snmp/Proofs/UserText.lean
  =========================
  **The texts that are read as users.**

  A text is cut at its colons, in one way only (`IsCut`).  One, three or five fields describe a
  user if each field in the place of a protocol names one, in whatever case (`Describes`); the
  number of fields is the level of the user.

  The name is the first field, and it should not be empty.  It is only looked at where it is the
  only field, though, so that a text that begins with a colon is read as a user without a name if
  the fields behind the colon are as they should be.  All other texts are read as they should be.
-/
import Mathlib
import Snmp.CommandLine.UserSpec
import Snmp.Proofs.DottedText
import Snmp.Proofs.KeyLaws
import Snmp.Proofs.Results
import Snmp.Proofs.Utf8Text

namespace Snmp

/-! ### Fields -/

theorem Text.not_mem_of_mem_fields (separator : Char) (text : List Char) :
    ∀ field ∈ fields separator text, separator ∉ field := by
  induction text with
  | nil => simp [fields]
  | cons c rest ih =>
    obtain ⟨field, more, hrest⟩ := List.exists_cons_of_ne_nil (fields_ne_nil separator rest)
    rw [hrest, List.forall_mem_cons] at ih
    simp only [fields, hrest]
    split
    · exact List.forall_mem_cons.2 ⟨List.not_mem_nil, List.forall_mem_cons.2 ih⟩
    · rename_i hc
      exact List.forall_mem_cons.2
        ⟨List.not_mem_cons_of_ne_of_not_mem (Ne.symm hc) ih.1, ih.2⟩

/-! ### Names of protocols -/

namespace Usm

/-- Two texts that differ at most in the case of ASCII letters. -/
def SameLetters (text other : String) : Prop :=
  text.toList.map Char.toLower = other.toList.map Char.toLower

/-- A text is one of the names of a protocol, in any case. -/
def IsNameIn {Protocol : Type} (names : List (String × Protocol)) (text : String)
    (protocol : Protocol) : Prop :=
  ∃ name, (name, protocol) ∈ names ∧ SameLetters text name

theorem sameLetters_upperCase (text : String) : SameLetters text (upperCase text) := by
  rw [SameLetters, upperCase, String.toList_ofList, List.map_map]
  exact List.map_congr_left fun c _ => (Char.toLower_toUpper_eq_toLower c).symm

theorem SameLetters.upperCase_eq {text other : String} (h : SameLetters text other) :
    upperCase text = upperCase other := by
  have hupper (s : String) :
      s.toList.map Char.toUpper = (s.toList.map Char.toLower).map Char.toUpper := by
    rw [List.map_map]
    exact List.map_congr_left fun c _ => (Char.toUpper_toLower_eq_toUpper c).symm
  rw [upperCase, upperCase, hupper, h, ← hupper]

/-- A table is searched in upper case for what is one of its names in any case, if its names are
    in upper case and each stands there once. -/
theorem lookup_upperCase_iff {Protocol : Type} {names : List (String × Protocol)}
    (hnames : ∀ entry ∈ names, upperCase entry.1 = entry.1 ∧ names.lookup entry.1 = some entry.2)
    (text : String) (protocol : Protocol) :
    names.lookup (upperCase text) = some protocol ↔ IsNameIn names text protocol := by
  constructor
  · intro h
    obtain ⟨before, after, rfl, -⟩ := List.lookup_eq_some_iff.1 h
    exact ⟨upperCase text, List.mem_append_right _ List.mem_cons_self, sameLetters_upperCase text⟩
  · rintro ⟨name, hmem, hsame⟩
    obtain ⟨hupper, hlookup⟩ := hnames (name, protocol) hmem
    rw [hsame.upperCase_eq, hupper, hlookup]

theorem AuthProtocol.ofName_eq_ok_iff (text : String) (protocol : AuthProtocol) :
    ofName text = .ok protocol ↔ IsNameIn names text protocol := by
  rw [← lookup_upperCase_iff (by decide), ofName]
  split <;> simp [*]

theorem PrivProtocol.ofName_eq_ok_iff (text : String) (protocol : PrivProtocol) :
    ofName text = .ok protocol ↔ IsNameIn names text protocol := by
  rw [← lookup_upperCase_iff (by decide), ofName]
  split <;> simp [*]

end Usm

namespace CommandLine.UserSpec

open Usm

/-! ### Cutting -/

/-- A text is these fields with colons between them. -/
structure IsCut (text : String) (fields : List String) : Prop where
  joined : text = ":".intercalate fields
  bare : ∀ field ∈ fields, ':' ∉ field.toList
  present : fields ≠ []

theorem toList_joined (fields : List String) :
    (":".intercalate fields).toList = [':'].intercalate (fields.map String.toList) :=
  String.toList_intercalate

theorem isCut_iff (text : String) (fields : List String) :
    IsCut text fields ↔ fields = (Text.fields ':' text.toList).map String.ofList := by
  rw [Text.fields_eq_splitOn]
  constructor
  · rintro ⟨rfl, hbare, hpresent⟩
    have hcolons : ∀ field ∈ fields.map String.toList, ':' ∉ field := by
      intro field hfield
      obtain ⟨text, htext, rfl⟩ := List.mem_map.1 hfield
      exact hbare text htext
    rw [toList_joined, List.splitOn_intercalate ':' hcolons (mt List.map_eq_nil_iff.1 hpresent),
      List.map_map]
    simp
  · rintro rfl
    refine ⟨?_, ?_, mt List.map_eq_nil_iff.1 (List.splitOn_ne_nil ':' text.toList)⟩
    · have hlists : String.toList ∘ String.ofList = id := funext fun _ => String.toList_ofList
      rw [← String.toList_inj, toList_joined, List.map_map, hlists, List.map_id,
        List.intercalate_splitOn]
    · intro field hfield
      obtain ⟨characters, hcharacters, rfl⟩ := List.mem_map.1 hfield
      rw [← Text.fields_eq_splitOn] at hcharacters
      rw [String.toList_ofList]
      exact Text.not_mem_of_mem_fields ':' text.toList characters hcharacters

/-- The first field is empty if there is nothing before the first colon. -/
theorem IsCut.head?_eq_iff {text : String} {fields : List String} (h : IsCut text fields) :
    fields.head? = some "" ↔ text = "" ∨ text.toList.head? = some ':' := by
  rw [(isCut_iff text fields).1 h, ← String.toList_inj]
  cases text.toList with
  | nil => simp [Text.fields]
  | cons c rest =>
    obtain ⟨field, more, hrest⟩ := List.exists_cons_of_ne_nil (Text.fields_ne_nil ':' rest)
    simp only [Text.fields, hrest]
    split <;> simp [*]

theorem IsCut.eq_empty_iff {text : String} {fields : List String} (h : IsCut text fields) :
    fields = [""] ↔ text = "" := by
  constructor
  · rintro rfl
    rw [h.joined]
    rfl
  · rintro rfl
    exact (isCut_iff "" fields).1 h

/-! ### Users -/

/-- The users that fields describe. -/
inductive Describes : List String → User → Prop
  | named (name : String) : Describes [name] { name := Text.Utf8.encode name }
  | authenticated (name authPass : String) {authName : String} {auth : AuthProtocol} :
      IsNameIn AuthProtocol.names authName auth →
      Describes [name, authName, authPass]
        { name := Text.Utf8.encode name, auth? := some ⟨auth, Text.Utf8.encode authPass, none⟩ }
  | encrypted (name authPass privPass : String) {authName privName : String}
      {auth : AuthProtocol} {privacy : PrivProtocol} :
      IsNameIn AuthProtocol.names authName auth → IsNameIn PrivProtocol.names privName privacy →
      Describes [name, authName, authPass, privName, privPass]
        { name := Text.Utf8.encode name, auth? := some ⟨auth, Text.Utf8.encode authPass, none⟩
          privacy? := some ⟨privacy, Text.Utf8.encode privPass, none⟩ }

/-- A user is extended by a protocol if there is one to extend it by. -/
theorem extended_eq_ok_iff {Protocol : Type} (found : Except UnknownProtocol Protocol)
    (extend : Protocol → User) (user : User) :
    (do return extend (← found.mapError Defect.unknownProtocol) : Except Defect User) = .ok user ↔
      ∃ protocol, found = .ok protocol ∧ user = extend protocol := by
  cases found with
  | error cause => simp [bind, Except.bind, Except.mapError_error]
  | ok protocol => simp [bind, Except.bind, pure, Except.pure, Except.mapError_ok, eq_comm]

theorem withAuth_eq_ok_iff (base : User) (authName authPass : String) (user : User) :
    withAuth base authName authPass = .ok user ↔
      ∃ auth, IsNameIn AuthProtocol.names authName auth ∧
        user = base.withAuth auth (Text.Utf8.encode authPass) := by
  simp only [withAuth, extended_eq_ok_iff, AuthProtocol.ofName_eq_ok_iff]

theorem withPrivacy_eq_ok_iff (base : User) (privName privPass : String) (user : User) :
    withPrivacy base privName privPass = .ok user ↔
      ∃ privacy, IsNameIn PrivProtocol.names privName privacy ∧
        user = base.withPrivacy privacy (Text.Utf8.encode privPass) := by
  simp only [withPrivacy, extended_eq_ok_iff, PrivProtocol.ofName_eq_ok_iff]

/-- Fields are read as the user that they describe, unless there is nothing but an empty name. -/
theorem ofFields_eq_ok_iff (fields : List String) (user : User) :
    ofFields fields = .ok user ↔ fields ≠ [""] ∧ Describes fields user := by
  fun_cases ofFields fields with
  | case1 => simp
  | case2 name hname =>
    constructor
    · rintro ⟨⟩
      exact ⟨fun h => hname (List.cons.inj h).1, .named name⟩
    · rintro ⟨-, ⟨⟩⟩
      rfl
  | case3 name authName authPass =>
    rw [withAuth_eq_ok_iff]
    constructor
    · rintro ⟨auth, hauth, rfl⟩
      exact ⟨nofun, .authenticated name authPass hauth⟩
    · rintro ⟨-, h⟩
      cases h with
      | authenticated _ _ hauth => exact ⟨_, hauth, rfl⟩
  | case4 name authName authPass privName privPass =>
    constructor
    · intro h
      obtain ⟨base, hbase, h⟩ := Except.bind_eq_ok h
      obtain ⟨auth, hauth, rfl⟩ := (withAuth_eq_ok_iff _ _ _ _).1 hbase
      obtain ⟨privacy, hprivacy, rfl⟩ := (withPrivacy_eq_ok_iff _ _ _ _).1 h
      exact ⟨nofun, .encrypted name authPass privPass hauth hprivacy⟩
    · rintro ⟨-, h⟩
      cases h with
      | encrypted _ _ _ hauth hprivacy =>
        rw [(withAuth_eq_ok_iff _ _ _ _).2 ⟨_, hauth, rfl⟩]
        exact (withPrivacy_eq_ok_iff _ _ _ _).2 ⟨_, hprivacy, rfl⟩
  | case5 fields hone hthree hfive =>
    simp only [reduceCtorEq, false_iff, not_and]
    rintro - h
    cases h with
    | named name => exact hone name rfl
    | authenticated name authPass _ => exact hthree name _ authPass rfl
    | encrypted name authPass privPass _ _ => exact hfive name _ authPass _ privPass rfl

theorem Describes.name_eq_nil_iff {fields : List String} {user : User}
    (h : Describes fields user) : user.name = [] ↔ fields.head? = some "" := by
  have hname (name : String) : Text.Utf8.encode name = [] ↔ name = "" := by
    constructor
    · intro hnil
      rw [← Text.Utf8.decodeLossy_encode name, hnil]
      rfl
    · rintro rfl
      rfl
  cases h <;> simp [hname]

/-- The number of fields is the level of the user. -/
theorem Describes.level {fields : List String} {user : User} (h : Describes fields user) :
    (fields.length, user.securityLevel) ∈
      [(1, SecurityLevel.noAuthNoPriv), (3, .authNoPriv), (5, .authPriv)] := by
  cases h <;> simp [User.securityLevel]

theorem parse_eq_ok_iff (text : String) (user : User) :
    parse text = .ok user ↔ text ≠ "" ∧ ∃ fields, IsCut text fields ∧ Describes fields user := by
  rw [parse, ofFields_eq_ok_iff]
  constructor
  · rintro ⟨hfilled, h⟩
    have hcut := (isCut_iff text _).2 rfl
    exact ⟨mt hcut.eq_empty_iff.2 hfilled, _, hcut, h⟩
  · rintro ⟨hfilled, fields, hcut, h⟩
    have hfields := (isCut_iff text fields).1 hcut
    rw [← hfields]
    exact ⟨mt hcut.eq_empty_iff.1 hfilled, h⟩

theorem Describes.unprepared {fields : List String} {user : User} (h : Describes fields user) :
    user.Unprepared := by
  cases h with
  | named name => exact User.unprepared_of_name _
  | authenticated => exact (User.unprepared_of_name _).withAuth _ _
  | encrypted => exact ((User.unprepared_of_name _).withAuth _ _).withPrivacy _ _

/-- A user that is read has no keys yet. -/
theorem unprepared_of_parse {text : String} {user : User} (h : parse text = .ok user) :
    user.Unprepared := by
  obtain ⟨_, _, _, hdescribes⟩ := (parse_eq_ok_iff text user).1 h
  exact hdescribes.unprepared

/-- The users that a text with a name is meant to describe. -/
def IsSpec (text : String) (user : User) : Prop :=
  ∃ fields, IsCut text fields ∧ fields.head? ≠ some "" ∧ Describes fields user

theorem parse_eq_ok_of_isSpec {text : String} {user : User} (h : IsSpec text user) :
    parse text = .ok user := by
  obtain ⟨fields, hcut, hhead, hdescribes⟩ := h
  rw [parse_eq_ok_iff]
  exact ⟨fun hempty => hhead (hcut.head?_eq_iff.2 (.inl hempty)), fields, hcut, hdescribes⟩

/-- **One, three or five fields are read as a user, and the name may be missing from three or
    five.**  A text is read as the user that its fields describe, unless it is empty.  The user
    has a level by the number of fields, and it has no name exactly if the text begins with a
    colon.  So texts are read as they should be, and no others are, exactly if the text is not
    one that is accepted although it begins with a colon. -/
theorem parse_describes (text : String) :
    (∀ user, parse text = .ok user ↔
      text ≠ "" ∧ ∃ fields, IsCut text fields ∧ Describes fields user) ∧
    (∀ user fields, parse text = .ok user → IsCut text fields →
      (fields.length, user.securityLevel) ∈
          [(1, SecurityLevel.noAuthNoPriv), (3, .authNoPriv), (5, .authPriv)] ∧
        (user.name = [] ↔ text.toList.head? = some ':')) ∧
    ((∀ user, parse text = .ok user ↔ IsSpec text user) ↔
      (text.toList.head? = some ':' → ∀ user, parse text ≠ .ok user)) := by
  have hname {user : User} {fields : List String} (hfilled : text ≠ "") (hcut : IsCut text fields)
      (h : Describes fields user) : user.name = [] ↔ text.toList.head? = some ':' := by
    rw [h.name_eq_nil_iff, hcut.head?_eq_iff, or_iff_right hfilled]
  refine ⟨parse_eq_ok_iff text, ?_, ?_, ?_⟩
  · intro user fields hparse hcut
    obtain ⟨hfilled, cut, hcut', h⟩ := (parse_eq_ok_iff text user).1 hparse
    obtain rfl : cut = fields :=
      ((isCut_iff text cut).1 hcut').trans ((isCut_iff text fields).1 hcut).symm
    exact ⟨h.level, hname hfilled hcut h⟩
  · intro hspec hcolon user hparse
    obtain ⟨fields, hcut, hhead, -⟩ := (hspec user).1 hparse
    exact hhead (hcut.head?_eq_iff.2 (.inr hcolon))
  · intro hrefused user
    refine ⟨fun hparse => ?_, parse_eq_ok_of_isSpec⟩
    obtain ⟨hfilled, fields, hcut, h⟩ := (parse_eq_ok_iff text user).1 hparse
    refine ⟨fields, hcut, fun hhead => ?_, h⟩
    exact hrefused ((hcut.head?_eq_iff.1 hhead).resolve_left hfilled) user hparse

/-- A user with both protocols, in mixed case, and an empty passphrase. -/
def mixedText : String := "op:sha-1:auth:Aes256:"

def mixedUser : User where
  name := [111, 112]
  auth? := some ⟨.sha1, [97, 117, 116, 104], none⟩
  privacy? := some ⟨.aes256, [], none⟩

def mixedFields : List String := ["op", "sha-1", "auth", "Aes256", ""]

theorem parse_describes_mixedText :
    parse mixedText = .ok mixedUser ∧ IsCut mixedText mixedFields ∧
    (mixedFields.length, mixedUser.securityLevel) ∈
      [(1, SecurityLevel.noAuthNoPriv), (3, .authNoPriv), (5, .authPriv)] ∧
    IsSpec mixedText mixedUser := by
  have hparse : parse mixedText = .ok mixedUser := rfl
  have hcut : IsCut mixedText mixedFields := (isCut_iff _ _).2 rfl
  have hcolon : mixedText.toList.head? ≠ some ':' := by decide
  obtain ⟨-, hlevel, hspec⟩ := parse_describes mixedText
  exact ⟨hparse, hcut, (hlevel mixedUser mixedFields hparse hcut).1,
    (hspec.2 (fun h => absurd h hcolon) mixedUser).1 hparse⟩

/-- Behind a colon an empty name is not noticed. -/
theorem nameless_read :
    parse ":SHA:authpass123" =
        .ok { name := [], auth? := some ⟨.sha1, Text.Utf8.encode "authpass123", none⟩ } ∧
      ¬∃ user, IsSpec ":SHA:authpass123" user := by
  refine ⟨rfl, ?_⟩
  rintro ⟨user, fields, hcut, hhead, -⟩
  exact hhead (hcut.head?_eq_iff.2 (.inr rfl))

end CommandLine.UserSpec

end Snmp
