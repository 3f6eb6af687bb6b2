import ApiCatalog.Endpoint.Manifest
import ApiCatalog.Proofs.Json.Records

/-!
# Manifests are read as they were written

What each part of a manifest is written as is a list of fields, with the condition under which a
field may be left out: that it holds its usual value (`Tag.fields` to `Endpoint.fields`). Every
value that is written so is read as what was written (`Endpoint.ofDocument?_asWritten`), and
`toJson` writes every field (`Endpoint.writtenAs_toJson`). Handlers are read only up to a certain
depth, so how deep the parts nest is stated as well (`Handler.WrittenAs.shallow`).
-/

namespace ApiCatalog

open ApiCatalog.Json

variable {v : Value}

/-! ## Tags -/

namespace Tag

variable {tag : Tag}

def fields (tag : Tag) : List RecordField :=
  [⟨"name", (· = .string tag.name), False⟩,
   ⟨"content", (· = .string tag.content), tag.content = ""⟩]

/-- The value is the tag, perhaps without its content if that is empty. -/
def WrittenAs (tag : Tag) : Value → Prop := ObjectOf tag.fields

theorem writtenAs_toJson (tag : Tag) : tag.WrittenAs tag.toJson :=
  ⟨_, rfl, .written rfl (.written rfl .nil)⟩

theorem WrittenAs.shallow (h : tag.WrittenAs v) : Shallow 1 v := by
  apply ObjectOf.shallow _ h
  simp [fields, ShallowFields, Shallow.string]

theorem ofDocument?_asWritten (h : tag.WrittenAs v) : ofDocument? v.asWritten = some tag := by
  obtain ⟨ms, rfl, hms⟩ := h
  obtain ⟨record, hrecord, hname, hcontent, -⟩ := hms.exists_record ["name", "content"]
    (by simp [fields]) (List.Subset.refl tag.fields) rfl
  have hname : record.required "name" Reader.string = some tag.name :=
    hname.required not_false fun v hv => hv ▸ Reader.string_asWritten _
  have hcontent : record.optional "content" "" Reader.string = some tag.content :=
    hcontent.optional id fun v hv => hv ▸ Reader.string_asWritten _
  simp [ofDocument?, hrecord, hname, hcontent]

end Tag

/-! ## Comments -/

namespace Comment

variable {comment : Comment}

def fields (comment : Comment) : List RecordField :=
  [⟨"short_text", (· = .string comment.summary), comment.summary = ""⟩,
   ⟨"long_text", (· = .string comment.body), comment.body = ""⟩,
   ⟨"tags", ArrayOf Tag.WrittenAs comment.tags, comment.tags = []⟩]

/-- The value is the comment, perhaps without what is empty in it. -/
def WrittenAs (comment : Comment) : Value → Prop := ObjectOf comment.fields

theorem writtenAs_toJson (comment : Comment) : comment.WrittenAs comment.toJson :=
  ⟨_, rfl, .written rfl (.written rfl (.written (arrayOf_map Tag.writtenAs_toJson _) .nil))⟩

theorem WrittenAs.shallow (h : comment.WrittenAs v) : Shallow 3 v := by
  apply ObjectOf.shallow _ h
  have htags : ∀ v, ArrayOf Tag.WrittenAs comment.tags v → Shallow 2 v :=
    fun v hv => hv.shallow fun tag v => Tag.WrittenAs.shallow
  simpa [fields, ShallowFields, Shallow.string] using htags

theorem ofDocument?_asWritten (h : comment.WrittenAs v) :
    ofDocument? v.asWritten = some comment := by
  obtain ⟨ms, rfl, hms⟩ := h
  obtain ⟨record, hrecord, hsummary, hbody, htags, -⟩ :=
    hms.exists_record ["short_text", "long_text", "tags"] (by simp [fields])
      (List.Subset.refl comment.fields) rfl
  have hsummary : record.optional "short_text" "" Reader.string = some comment.summary :=
    hsummary.optional id fun v hv => hv ▸ Reader.string_asWritten _
  have hbody : record.optional "long_text" "" Reader.string = some comment.body :=
    hbody.optional id fun v hv => hv ▸ Reader.string_asWritten _
  have htags : record.optional "tags" [] (Reader.list Tag.ofDocument?) = some comment.tags :=
    htags.optional id fun v hv => hv.read fun tag v => Tag.ofDocument?_asWritten
  simp [ofDocument?, hrecord, hsummary, hbody, htags]

end Comment

/-! ## Parameters -/

namespace Parameter

variable {p : Parameter}

def fields (p : Parameter) : List RecordField :=
  [⟨"name", (· = .string p.name), False⟩,
   ⟨"type_name", (· = Value.nullable p.typeName), p.typeName = none⟩,
   ⟨"builtin", (· = .bool p.builtin), p.builtin = false⟩,
   ⟨"entity", (· = .bool p.entity), p.entity = false⟩,
   ⟨"default", (· = Value.nullable p.default), p.default = none⟩]

/-- The value is the parameter, perhaps without what has its usual value. -/
def WrittenAs (p : Parameter) : Value → Prop := ObjectOf p.fields

theorem writtenAs_toJson (p : Parameter) : p.WrittenAs p.toJson :=
  ⟨_, rfl, .written rfl (.written rfl (.written rfl (.written rfl (.written rfl .nil))))⟩

theorem WrittenAs.shallow (h : p.WrittenAs v) : Shallow 1 v := by
  apply ObjectOf.shallow _ h
  simp [fields, ShallowFields, Shallow.string, Shallow.bool, Shallow.nullable]

theorem ofDocument?_asWritten (h : p.WrittenAs v) : ofDocument? v.asWritten = some p := by
  obtain ⟨ms, rfl, hms⟩ := h
  obtain ⟨record, hrecord, hname, htype, hbuiltin, hentity, hdefault, -⟩ :=
    hms.exists_record ["name", "type_name", "builtin", "entity", "default"] (by simp [fields])
      (List.Subset.refl p.fields) rfl
  have hname : record.required "name" Reader.string = some p.name :=
    hname.required not_false fun v hv => hv ▸ Reader.string_asWritten _
  have htype : record.optional "type_name" none (Reader.nullable Reader.string) =
      some p.typeName :=
    htype.optional id fun v hv => hv ▸ Reader.nullable_asWritten _
  have hbuiltin : record.optional "builtin" false Reader.bool = some p.builtin :=
    hbuiltin.optional id fun v hv => hv ▸ Reader.bool_asWritten _
  have hentity : record.optional "entity" false Reader.bool = some p.entity :=
    hentity.optional id fun v hv => hv ▸ Reader.bool_asWritten _
  have hdefault : record.optional "default" none (Reader.nullable Reader.string) =
      some p.default :=
    hdefault.optional id fun v hv => hv ▸ Reader.nullable_asWritten _
  simp [ofDocument?, hrecord, hname, htype, hbuiltin, hentity, hdefault]

end Parameter

/-! ## Handlers -/

/-- The fields of a method, without its kind. -/
def HandlerMethod.fields (m : HandlerMethod) : List RecordField :=
  [⟨"owner", (· = .string m.owner), False⟩,
   ⟨"method", (· = .string m.name), False⟩,
   ⟨"method_doc", m.comment.WrittenAs, m.comment = {}⟩,
   ⟨"owner_doc", m.ownerComment.WrittenAs, m.ownerComment = {}⟩,
   ⟨"parameters", ArrayOf Parameter.WrittenAs m.parameters, m.parameters = []⟩]

namespace Handler

variable {handler : Handler} {m : HandlerMethod} {kind : String}
variable {others : List RecordField} {ms : List (String × Value)}

def kindField (kind : String) : RecordField := ⟨"kind", (· = .string kind), False⟩

def fields : Handler → List RecordField
  | .method m => kindField "method" :: m.fields
  | .anonymous => [kindField "anonymous"]

/-- The value is the handler, perhaps without what is empty in it. -/
def WrittenAs (handler : Handler) : Value → Prop := ObjectOf handler.fields

theorem writtenAs_toJson (handler : Handler) : handler.WrittenAs handler.toJson := by
  cases handler with
  | method m =>
    exact ⟨_, rfl, .written rfl (.written rfl (.written rfl
      (.written m.comment.writtenAs_toJson (.written m.ownerComment.writtenAs_toJson
        (.written (arrayOf_map Parameter.writtenAs_toJson _) .nil)))))⟩
  | anonymous => exact ⟨_, rfl, .written rfl .nil⟩

theorem WrittenAs.shallow (h : handler.WrittenAs v) : Shallow 4 v := by
  apply ObjectOf.shallow _ h
  cases handler with
  | method m =>
    have hcomment : ∀ (comment : Comment) v, comment.WrittenAs v → Shallow 3 v :=
      fun comment v => Comment.WrittenAs.shallow
    have hparameters : ∀ v, ArrayOf Parameter.WrittenAs m.parameters v → Shallow 3 v :=
      fun v hv => (hv.shallow fun p v => Parameter.WrittenAs.shallow).mono (by decide)
    simpa [fields, kindField, HandlerMethod.fields, ShallowFields, Shallow.string] using
      ⟨hcomment m.comment, hcomment m.ownerComment, hparameters⟩
  | anonymous => simp [fields, kindField, ShallowFields, Shallow.string]

/-- The kind is found where it was written, and the document of the other fields is the whole. -/
theorem kindOf?_asWritten (h : MembersOf (kindField kind :: others) ms)
    (hnodup : ((kindField kind :: others).map RecordField.name).Nodup) :
    kindOf? (Value.object ms).asWritten = some (kind, (Value.object ms).asWritten) := by
  obtain ⟨record, hrecord, hkind, -⟩ := h.exists_record ["kind"] hnodup
    (List.cons_subset_cons _ (List.nil_subset others)) rfl
  have hkind : record.required "kind" Reader.string = some kind :=
    hkind.required not_false fun v hv => hv ▸ Reader.string_asWritten _
  rw [Value.asWritten] at hrecord ⊢
  simp [kindOf?, hrecord, hkind]

end Handler

namespace HandlerMethod

variable {m : HandlerMethod} {ms : List (String × Value)}

theorem nodup_fields (m : HandlerMethod) :
    ((Handler.method m).fields.map RecordField.name).Nodup := by
  simp [Handler.fields, Handler.kindField, fields]

/-- A method is read from an object that also says its kind. -/
theorem ofDocument?_asWritten (hms : MembersOf (Handler.method m).fields ms) :
    ofDocument? (Value.object ms).asWritten = some m := by
  obtain ⟨record, hrecord, howner, hname, hcomment, hownerComment, hparameters, -⟩ :=
    hms.exists_record ["owner", "method", "method_doc", "owner_doc", "parameters"] m.nodup_fields
      (List.subset_cons_self _ m.fields) rfl
  have howner : record.required "owner" Reader.string = some m.owner :=
    howner.required not_false fun v hv => hv ▸ Reader.string_asWritten _
  have hname : record.required "method" Reader.string = some m.name :=
    hname.required not_false fun v hv => hv ▸ Reader.string_asWritten _
  have hcomment : record.optional "method_doc" {} Comment.ofDocument? = some m.comment :=
    hcomment.optional id fun v => Comment.ofDocument?_asWritten
  have hownerComment : record.optional "owner_doc" {} Comment.ofDocument? =
      some m.ownerComment :=
    hownerComment.optional id fun v => Comment.ofDocument?_asWritten
  have hparameters : record.optional "parameters" [] (Reader.list Parameter.ofDocument?) =
      some m.parameters :=
    hparameters.optional id fun v hv => hv.read fun p v => Parameter.ofDocument?_asWritten
  simp [ofDocument?, hrecord, howner, hname, hcomment, hownerComment, hparameters]

end HandlerMethod

namespace Handler

variable {handler : Handler}

theorem ofDocument?_asWritten (h : handler.WrittenAs v) :
    ofDocument? v.asWritten = some handler := by
  have hdepth : v.asWritten.depth ≤ depthLimit := Nat.le_trans h.shallow.depth_le (by decide)
  have hmeaning : v.asWritten.meaning?.isSome = true :=
    Value.meaning?_asWritten v h.shallow.numberFree
  obtain ⟨ms, rfl, hms⟩ := h
  rw [ofDocument?, if_pos (by simp [hdepth, hmeaning])]
  cases handler with
  | method m =>
    rw [kindOf?_asWritten hms m.nodup_fields]
    simp [HandlerMethod.ofDocument?_asWritten hms]
  | anonymous =>
    rw [kindOf?_asWritten hms (by simp [kindField])]
    simp [isBare, Value.asWritten]

end Handler

/-! ## Endpoints -/

namespace Endpoint

variable {e : Endpoint}

def fields (e : Endpoint) : List RecordField :=
  [⟨"uri", (· = .string e.uri), False⟩,
   ⟨"name", (· = Value.nullable e.name), e.name = none⟩,
   ⟨"methods", (· = .array (e.declaredMethods.map .string)), False⟩,
   ⟨"wheres", (· = .object (e.constraints.entries.map fun entry => (entry.1, .string entry.2))),
     e.constraints = .empty⟩,
   ⟨"handler", e.handler.WrittenAs, False⟩]

/-- The value is the endpoint, perhaps without what has its usual value. -/
def WrittenAs (e : Endpoint) : Value → Prop := ObjectOf e.fields

theorem writtenAs_toJson (e : Endpoint) : e.WrittenAs e.toJson :=
  ⟨_, rfl, .written rfl (.written rfl (.written rfl (.written rfl
    (.written e.handler.writtenAs_toJson .nil))))⟩

theorem WrittenAs.shallow (h : e.WrittenAs v) : Shallow 5 v := by
  apply ObjectOf.shallow _ h
  have hmethods : Shallow 4 (.array (e.declaredMethods.map .string)) :=
    Shallow.array (n := 3) (List.forall_mem_map.2 fun s _ => .string s)
  have hwheres : Shallow 4
      (.object (e.constraints.entries.map fun entry => (entry.1, .string entry.2))) :=
    Shallow.object (n := 3) (List.forall_mem_map.2 fun entry _ => .string entry.2)
  have hhandler : ∀ v, e.handler.WrittenAs v → Shallow 4 v := fun v => Handler.WrittenAs.shallow
  simpa [fields, ShallowFields, Shallow.string, Shallow.nullable] using
    ⟨hmethods, hwheres, hhandler⟩

theorem ofDocument?_asWritten (h : e.WrittenAs v) : ofDocument? v.asWritten = some e := by
  obtain ⟨ms, rfl, hms⟩ := h
  obtain ⟨record, hrecord, huri, hname, hmethods, hwheres, hhandler, -⟩ :=
    hms.exists_record ["uri", "name", "methods", "wheres", "handler"] (by simp [fields])
      (List.Subset.refl e.fields) rfl
  have huri : record.required "uri" Reader.string = some e.uri :=
    huri.required not_false fun v hv => hv ▸ Reader.string_asWritten _
  have hname : record.optional "name" none (Reader.nullable Reader.string) = some e.name :=
    hname.optional id fun v hv => hv ▸ Reader.nullable_asWritten _
  have hmethods : record.required "methods" (Reader.list Reader.string) =
      some e.declaredMethods :=
    hmethods.required not_false fun v hv => hv ▸ Reader.list_asWritten
      (List.forall₂_map_right_iff.2 (List.forall₂_same.2 fun s _ => Reader.string_asWritten s))
  have hwheres : record.optional "wheres" .empty (Reader.map Reader.string) =
      some e.constraints :=
    hwheres.optional id fun v hv => hv ▸ Reader.map_asWritten Value.string Reader.string_asWritten _
  have hhandler : record.required "handler" Handler.ofDocument? = some e.handler :=
    hhandler.required not_false fun v => Handler.ofDocument?_asWritten
  simp [ofDocument?, hrecord, huri, hname, hmethods, hwheres, hhandler]

end Endpoint

/-! ## Manifests -/

namespace Manifest

/-- The text of a manifest is read as the endpoints, also if fields with their usual value are left
out anywhere in it. -/
theorem read?_written (endpoints : List Endpoint) :
    read? (write endpoints) = some endpoints ∧
      ∀ vs, List.Forall₂ Endpoint.WrittenAs endpoints vs →
        read? (Value.array vs).write = some endpoints := by
  have hread : ∀ v, ArrayOf Endpoint.WrittenAs endpoints v → read? v.write = some endpoints := by
    intro v h
    have hshallow : Shallow 6 v := h.shallow fun e v => Endpoint.WrittenAs.shallow
    rw [read?, Value.read?_write hshallow.numberFree, Option.bind_some]
    exact h.read fun e v => Endpoint.ofDocument?_asWritten
  exact ⟨hread _ (arrayOf_map Endpoint.writtenAs_toJson endpoints),
    fun vs hvs => hread _ ⟨vs, rfl, hvs⟩⟩

/-- Of this endpoint the constraints are left out, and most fields of its handler and of a tag. -/
theorem read?_written_usersIndex :
    read? (Value.array [.object [("uri", .string "users"), ("name", .null),
        ("methods", .array [.string "GET"]),
        ("handler", .object [("kind", .string "method"), ("owner", .string "Users"),
          ("method", .string "index"),
          ("method_doc", .object [("tags", .array [.object [("name", .string "internal")]])])])]]
      ).write =
      some [{
        uri := "users"
        declaredMethods := ["GET"]
        handler := .method
          { owner := "Users", name := "index",
            comment := { tags := [{ name := "internal" }] } } }] := by
  have htag : Tag.WrittenAs { name := "internal" } (.object [("name", .string "internal")]) :=
    ⟨_, rfl, .written rfl (.leftOut rfl .nil)⟩
  have hcomment : Comment.WrittenAs { tags := [{ name := "internal" }] }
      (.object [("tags", .array [.object [("name", .string "internal")]])]) :=
    ⟨_, rfl, .leftOut rfl (.leftOut rfl (.written ⟨_, rfl, .cons htag .nil⟩ .nil))⟩
  refine (read?_written _).2 _ (.cons ⟨_, rfl, .written rfl (.written rfl (.written rfl
    (.leftOut rfl (.written ⟨_, rfl, ?_⟩ .nil))))⟩ .nil)
  exact .written rfl (.written rfl (.written rfl (.written hcomment (.leftOut rfl
    (.leftOut rfl .nil)))))

end Manifest

end ApiCatalog
