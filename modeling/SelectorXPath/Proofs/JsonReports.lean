import SelectorXPath.Proofs.JsonGrammar
import SelectorXPath.Report.Conversion

namespace SelectorXPath

namespace Json

open JsonGrammar

section Strings

theorem hexDigit?_digitChar : ∀ n < 16, hexDigit? (Nat.digitChar n) = some n := by
  decide

theorem spellsUnit_low {n : Nat} (h : n < 0x20) :
    SpellsUnit n ['\\', 'u', '0', '0', Nat.digitChar (n / 16), Nat.digitChar (n % 16)] := by
  have hunit := SpellsUnit.mk (hexDigit?_digitChar 0 (by decide))
    (hexDigit?_digitChar 0 (by decide)) (hexDigit?_digitChar (n / 16) (by omega))
    (hexDigit?_digitChar (n % 16) (by omega))
  have hn : ((0 * 16 + 0) * 16 + n / 16) * 16 + n % 16 = n := by omega
  rw [hn] at hunit
  exact hunit

theorem spellsChar_escapeChar (c : Char) : SpellsChar c (escapeChar c) := by
  unfold escapeChar
  split_ifs with hquote hbackslash hnewline hreturn htab hback hfeed hlow
  · subst hquote
    exact .escape (by decide)
  · subst hbackslash
    exact .escape (by decide)
  · subst hnewline
    exact .escape (by decide)
  · subst hreturn
    exact .escape (by decide)
  · subst htab
    exact .escape (by decide)
  · obtain rfl : c = '\x08' := Char.toNat_inj.mp hback
    exact .escape (by decide)
  · obtain rfl : c = '\x0C' := Char.toNat_inj.mp hfeed
    exact .escape (by decide)
  · refine .code (.unit (spellsUnit_low hlow) ?_ ?_)
    · simp only [isHigh, Bool.and_eq_false_iff, decide_eq_false_iff_not]
      omega
    · simp only [isLow, Bool.and_eq_false_iff, decide_eq_false_iff_not]
      omega
  · exact .plain (Nat.not_lt.mp hlow) hquote hbackslash

theorem spellsChars_flatMap (t : Text) : SpellsChars t (t.flatMap escapeChar) := by
  induction t with
  | nil => exact .nil
  | cons c t ih => exact .cons (spellsChar_escapeChar c) ih

theorem spellsString_quote (t : Text) : SpellsString t (quote t) :=
  .mk (spellsChars_flatMap t)

end Strings

mutual

def value : Json → JsonValue
  | .null => .null
  | .str t => .str t
  | .arr items => .arr (valueItems items)
  | .obj members => .obj (valueMembers members)

def valueItems : List Json → List JsonValue
  | [] => []
  | item :: more => item.value :: valueItems more

def valueMembers : List (Text × Json) → List (Text × JsonValue)
  | [] => []
  | (key, member) :: more => (key, member.value) :: valueMembers more

end

theorem valueItems_eq_map (items : List Json) : valueItems items = items.map value := by
  induction items with
  | nil => rfl
  | cons item more ih => rw [valueItems, ih, List.map_cons]

theorem valueMembers_eq_map (members : List (Text × Json)) :
    valueMembers members = members.map fun m => (m.1, m.2.value) := by
  induction members with
  | nil => rfl
  | cons m more ih => rw [valueMembers, ih, List.map_cons]

section Rows

theorem spaces_nil : Spaces [] := by
  decide

theorem spaces_newline (level : Nat) : Spaces (newline level) := by
  refine List.forall_mem_cons.mpr ⟨by decide, fun c hc => ?_⟩
  rw [List.eq_of_mem_replicate hc]
  decide

variable {α β : Type} {entry : α → Text → Prop} {read : β → α} {write : β → Text}

theorem row_lines (level inner : Nat) {b : β} {more : List β}
    (h : ∀ x ∈ b :: more, entry (read x) (write x)) :
    Row entry ((b :: more).map read) (newline inner ++ (write b ++
      (more.flatMap (fun x => ',' :: (newline inner ++ write x)) ++ newline level))) := by
  induction more generalizing b with
  | nil => exact .last (.mk (spaces_newline inner) (h b (by simp)) (spaces_newline level))
  | cons x more ih =>
    obtain ⟨hb, hmore⟩ := List.forall_mem_cons.mp h
    have hpadded : Padded entry (read b) (newline inner ++ (write b ++ [])) :=
      .mk (spaces_newline inner) hb spaces_nil
    have hrow := Row.more hpadded (ih hmore)
    simpa using hrow

def renderMember (level : Nat) (m : Text × Json) : Text :=
  quote m.1 ++ ": ".toList ++ render level m.2

theorem renderItems_eq_flatMap (level : Nat) (items : List Json) :
    renderItems level items =
      items.flatMap fun item => ',' :: (newline level ++ render level item) := by
  induction items with
  | nil => rfl
  | cons item more ih => simp [renderItems, ih]

theorem renderMembers_eq_flatMap (level : Nat) (members : List (Text × Json)) :
    renderMembers level members =
      members.flatMap fun m => ',' :: (newline level ++ renderMember level m) := by
  induction members with
  | nil => rfl
  | cons m more ih => simp [renderMembers, renderMember, ih]

end Rows

section Documents

theorem denotes_arr {items : List Json} {level : Nat}
    (h : ∀ item ∈ items, Denotes item.value (item.render (level + 1))) :
    Denotes (value (.arr items)) (render level (.arr items)) := by
  rw [value, valueItems_eq_map]
  cases items with
  | nil => exact .arr (.empty spaces_nil)
  | cons item more =>
    have harr := Denotes.arr (row_lines level (level + 1) h)
    simpa [render, renderItems_eq_flatMap] using harr

theorem member_renderMember {m : Text × Json} {level : Nat}
    (h : Denotes m.2.value (m.2.render level)) :
    Member Denotes (m.1, m.2.value) (renderMember level m) := by
  have hone : Spaces [' '] := by decide
  have hmember := Member.mk (spellsString_quote m.1) spaces_nil hone h
  simpa [renderMember] using hmember

theorem denotes_obj {members : List (Text × Json)} {level : Nat}
    (h : ∀ m ∈ members, Denotes m.2.value (m.2.render (level + 1))) :
    Denotes (value (.obj members)) (render level (.obj members)) := by
  rw [value, valueMembers_eq_map]
  cases members with
  | nil => exact .obj (.empty spaces_nil)
  | cons m more =>
    have hobj := Denotes.obj
      (row_lines level (level + 1) fun m hm => member_renderMember (h m hm))
    simpa [render, renderMembers_eq_flatMap, renderMember] using hobj

mutual

theorem denotes_render : ∀ (json : Json) (level : Nat), Denotes json.value (json.render level)
  | .null, _ => .null
  | .str t, _ => .str (spellsString_quote t)
  | .arr items, level => denotes_arr (denotes_render_items items (level + 1))
  | .obj members, level => denotes_obj (denotes_render_members members (level + 1))

theorem denotes_render_items :
    ∀ (items : List Json) (level : Nat), ∀ item ∈ items, Denotes item.value (item.render level)
  | [], _ => fun _ h => absurd h List.not_mem_nil
  | item :: more, level =>
    List.forall_mem_cons.mpr ⟨denotes_render item level, denotes_render_items more level⟩

theorem denotes_render_members :
    ∀ (members : List (Text × Json)) (level : Nat),
      ∀ m ∈ members, Denotes m.2.value (m.2.render level)
  | [], _ => fun _ h => absurd h List.not_mem_nil
  | (_, member) :: more, level =>
    List.forall_mem_cons.mpr ⟨denotes_render member level, denotes_render_members more level⟩

end

theorem document_pretty_iff (json : Json) (v : JsonValue) :
    Document v json.pretty ↔ v = json.value := by
  have hdocument : Document json.value json.pretty := by
    have hpadded := Padded.mk spaces_nil (denotes_render json 0) spaces_nil
    rw [List.append_nil, List.nil_append] at hpadded
    exact hpadded
  constructor
  · intro h
    exact h.eq hdocument
  · rintro rfl
    exact hdocument

end Documents

end Json

section Reports

namespace Conversion

def decoded (record : Conversion) : JsonValue :=
  .obj [("selector".toList, .str record.selector),
    match record.outcome with
    | .ok xpath => ("xpath".toList, .str xpath)
    | .error e => ("error".toList, .str e.message)]

theorem value_toJson (record : Conversion) : record.toJson.value = record.decoded := by
  obtain ⟨selector, outcome⟩ := record
  cases outcome <;> rfl

end Conversion

theorem value_records (records : List Conversion) :
    (Json.arr (records.map Conversion.toJson)).value = .arr (records.map Conversion.decoded) := by
  rw [Json.value, Json.valueItems_eq_map, List.map_map]
  exact congrArg JsonValue.arr (List.map_congr_left fun record _ => record.value_toJson)

theorem json_report_decodes (anchor : Anchor) (keepGoing : Bool) (selectors : List Text) :
    ∃ document,
      (∀ echo, writeConversions .json echo (convertAll anchor keepGoing selectors) =
        document ++ ['\n']) ∧
      ∀ v, JsonGrammar.Document v document ↔
        v = .arr ((convertAll anchor keepGoing selectors).map Conversion.decoded) := by
  refine ⟨_, fun echo => rfl, fun v => ?_⟩
  rw [Json.document_pretty_iff, value_records]

end Reports

end SelectorXPath
