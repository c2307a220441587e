import Mathlib.Data.List.TakeWhile
import Pagewright.Proofs.OpenedFiles
import Pagewright.Proofs.TextBytes

/-! Pages whose files are absent. A page without a template is not found, and one without a file of
variables is rendered without them, as long as the file's name and path are no longer than a file's can be:
a longer one cannot be looked for, and that is an internal error. -/
namespace Pagewright

theorem Text.percentDecode_of_not_mem {bs : Bytes} (h : 37 ∉ bs) : percentDecode bs = bs := by
  have hfrom (out : Bytes) : percentDecodeFrom out bs = out.reverse ++ bs := by
    induction bs generalizing out with
    | nil => simp [percentDecodeFrom]
    | cons b bs ih =>
      obtain ⟨hb, hbs⟩ := not_or.mp (mt List.mem_cons.mpr h)
      have hstep : percentDecodeFrom out (b :: bs) = percentDecodeFrom (b :: out) bs := by
        rw [percentDecodeFrom.eq_def]
        split
        · contradiction
        · next heq => exact absurd (List.cons.inj heq).1 (Ne.symm hb)
        · next heq =>
          obtain ⟨rfl, rfl⟩ := List.cons.inj heq
          rfl
      rw [hstep, ih hbs, List.reverse_cons, List.append_assoc, List.singleton_append]
  exact hfrom []

namespace Files

variable {fs : Files} {dir name : String} {place : Option Location}

theorem readText_absent (hname : Path.IsName name) (hnul : '\x00' ∉ name.toList)
    (hdir : fs.resolve dir = .ok (place, .directory)) (habsent : fs.child? place name = none)
    (hshort : ShortEnough dir name) : fs.readText (Path.join dir name) = .error .notFound := by
  have hresolve := (resolve_child hname hnul hdir).1 hshort
  rw [habsent] at hresolve
  unfold readText read
  rw [hresolve]

theorem readText_long (hname : Path.IsName name) (hnul : '\x00' ∉ name.toList)
    (hdir : fs.resolve dir = .ok (place, .directory)) (hlong : ¬ShortEnough dir name) :
    fs.readText (Path.join dir name) = .error .nameTooLong := by
  unfold readText read
  rw [(resolve_child hname hnul hdir).2 hlong]

end Files

namespace Server

open Http (Request Response)
open Page (Context PageHandler Pool)

private theorem isNameChar_of_isPlain {c : Char} (h : IsPlain c) : Page.isNameChar c = true := by
  unfold Page.isNameChar Char.isAlphanum Char.isAlpha Char.isUpper Char.isLower Char.isDigit
  simp only [Bool.or_eq_true, Bool.and_eq_true, decide_eq_true_eq, or_assoc]
  exact h

namespace PlainName

variable {name : String}

theorem of_all (hne : name ≠ "") (hall : name.toList.all (IsPlain ·) = true) : PlainName name :=
  ⟨hne, fun c hc => of_decide_eq_true (List.all_eq_true.mp hall c hc)⟩

theorem pageName? (h : PlainName name) {segments : List String}
    (hsegments : segments = [name] ∨ segments = [] ∧ name = "home") :
    Page.pageName? segments = some name := by
  rcases hsegments with rfl | ⟨rfl, rfl⟩
  · have hall : name.toList.all Page.isNameChar = true :=
      List.all_eq_true.mpr fun c hc => isNameChar_of_isPlain (h.plain c hc)
    simp [Page.pageName?, hall, h.nonempty]
  · rfl

theorem nul_not_mem (h : PlainName name) {ending : String} (hending : ending ∈ [".lua", ".json"]) :
    '\x00' ∉ (name ++ ending).toList := by
  have hend : ∀ ending ∈ [".lua", ".json"], '\x00' ∉ ending.toList := by decide
  simp [h.not_mem (show ¬IsPlain '\x00' by decide), hend ending hending]

theorem toNat_of_isPlain {c : Char} (h : IsPlain c) :
    45 ≤ c.val.toNat ∧ c.val.toNat ≤ 122 ∧ c.val.toNat ≠ 63 := by
  unfold IsPlain at h
  simp only [Char.le_def, UInt32.le_iff_toNat_le] at h
  rcases h with ⟨h, h'⟩ | ⟨h, h'⟩ | ⟨h, h'⟩ | rfl | rfl
  · change 65 ≤ _ at h
    change _ ≤ 90 at h'
    omega
  · change 97 ≤ _ at h
    change _ ≤ 122 at h'
    omega
  · change 48 ≤ _ at h
    change _ ≤ 57 at h'
    omega
  · decide
  · decide

private theorem utf8Size_of_isPlain {c : Char} (h : IsPlain c) : c.utf8Size = 1 := by
  rw [Char.utf8Size_eq_one_iff, UInt32.le_iff_toNat_le]
  exact Nat.le_trans (toNat_of_isPlain h).2.1 (by decide)

private theorem utf8ByteSize_of_isPlain {cs : List Char} (h : ∀ c ∈ cs, IsPlain c) :
    (String.ofList cs).utf8ByteSize = cs.length := by
  induction cs with
  | nil => rfl
  | cons c cs ih =>
      obtain ⟨hc, hcs⟩ := List.forall_mem_cons.mp h
      have hchars : String.ofList (c :: cs) = String.singleton c ++ String.ofList cs := by
        apply String.toList_injective
        simp
      rw [hchars, String.utf8ByteSize_append, String.utf8ByteSize_singleton, ih hcs,
        utf8Size_of_isPlain hc, List.length_cons, Nat.add_comm]

theorem utf8ByteSize_eq (h : PlainName name) : name.utf8ByteSize = name.length := by
  have hsize := utf8ByteSize_of_isPlain h.plain
  rwa [String.ofList_toList, String.length_toList] at hsize

/-- A plain character is a byte of its own, which is no mark of a target. -/
theorem mem_bytes {cs : List Char} (h : ∀ c ∈ cs, IsPlain c) {b : UInt8} (hb : b ∈ Utf8.encode cs) :
    b ≠ 37 ∧ b ≠ 63 := by
  obtain ⟨c, hc, hbyte⟩ := List.mem_flatMap.mp hb
  obtain ⟨hlow, hhigh, hmark⟩ := toNat_of_isPlain (h c hc)
  rw [String.utf8EncodeChar, if_pos (by omega)] at hbyte
  obtain rfl := List.mem_singleton.mp hbyte
  constructor
  · intro heq
    have hnat := congrArg UInt8.toNat heq
    rw [Utf8.toNat_ofNat (by omega)] at hnat
    change c.val.toNat = 37 at hnat
    omega
  · intro heq
    have hnat := congrArg UInt8.toNat heq
    rw [Utf8.toNat_ofNat (by omega)] at hnat
    exact hmark hnat

theorem segments_eq (h : PlainName name) (method : String) :
    Request.segments ⟨method, "/" ++ name⟩ = [name] := by
  have hbytes : Bytes.ofText ("/" ++ name) = 47 :: Bytes.ofText name := by
    rw [Bytes.ofText, Bytes.ofText, String.toList_append]
    rfl
  have hmarks {b : UInt8} (hb : b ∈ Bytes.ofText ("/" ++ name)) : b ≠ 37 ∧ b ≠ 63 := by
    rw [hbytes, List.mem_cons] at hb
    rcases hb with rfl | hb
    · decide
    · exact mem_bytes h.plain hb
  have hpath : Request.path ⟨method, "/" ++ name⟩ = "/" ++ name := by
    unfold Request.path
    rw [List.takeWhile_eq_self_iff.mpr fun b hb => by simpa using (hmarks hb).2,
      Text.percentDecode_of_not_mem fun hmem => (hmarks hmem).1 rfl, Bytes.toText_ofText]
  have hsplit : Text.split '/' ("/" ++ name) = Text.split '/' "" ++ Text.split '/' name :=
    Text.split_append_sep '/' "" name
  have hone : Text.split '/' name = [name] := by
    have hslash := Text.pieces_of_not_mem (h.not_mem (show ¬IsPlain '/' by decide))
    simp [Text.split, hslash]
  unfold Request.segments Http.pathSegments
  rw [hpath, hsplit, hone]
  simp [Text.split, Text.pieces, h.nonempty]

end PlainName

theorem respond_page (c : Config) (start files : Files) (port : Option Nat) (peer : String)
    {r : Request} (s : State) (hget : r.method = "GET") {name : String}
    (hname : Page.pageName? r.segments = some name) :
    let app := Application.ofConfig c start port
    let out := (app.respond files peer r).run s
    let answer := pageAnswer app.registry files s.pool
      (pageFiles ⟨c.templateDir, c.defaultHeading⟩ files name).1
    out.1 = answer.1 ∧ out.2.pool = answer.2 := by
  intro app out answer
  have hmethod : ¬(r.method ≠ "GET" ∧ r.method ≠ "HEAD") := fun h => h.1 hget
  have hcontains : Application.methods.contains r.method = true := by
    rw [hget]
    decide
  obtain ⟨hanswered, hleft, -⟩ := respond_handled app files peer s hcontains
  obtain ⟨hresponse, hpool, -⟩ := handle_eq_decision c start files port r s hmethod
  have hdecision : decision app.registry c port files s.pool r =
      pageDecision app.registry c files s.pool r.segments := by
    unfold decision
    rw [if_neg hmethod]
    split
    · next hsegments =>
      rw [hsegments] at hname
      have hnone : Page.pageName? ["livereload.js"] = none := by decide
      rw [hnone] at hname
      cases hname
    · rfl
  rw [hdecision] at hresponse hpool
  unfold pageDecision at hresponse hpool
  rw [hname] at hresponse hpool
  exact ⟨hanswered.trans hresponse, hleft.trans hpool⟩

theorem shortEnough_iff {name : String} (h : PlainName name) (dir : String) {ending : String}
    (hending : ending ∈ [".lua", ".json"]) :
    Files.ShortEnough dir (name ++ ending) ↔
      (Path.join dir (name ++ ending)).utf8ByteSize ≤ 4095 ∧ name.length + ending.length ≤ 255 := by
  have hend : ∀ ending ∈ [".lua", ".json"], ending.utf8ByteSize = ending.length := by decide
  have hsize : (name ++ ending).utf8ByteSize = name.length + ending.length := by
    rw [String.utf8ByteSize_append, h.utf8ByteSize_eq, hend ending hending]
  constructor
  · rintro ⟨hpath, hlast⟩
    exact ⟨hpath, hsize ▸ hlast⟩
  · rintro ⟨hpath, hlast⟩
    exact ⟨hpath, hsize ▸ hlast⟩

section

variable (c : Config) {files : Files} {place : Option Location} {name : String}

theorem pageFiles_without_template (h : PlainName name)
    (hdir : files.resolve c.templateDir = .ok (place, .directory))
    (habsent : files.child? place (name ++ ".lua") = none) :
    (Files.ShortEnough c.templateDir (name ++ ".lua") →
      (pageFiles ⟨c.templateDir, c.defaultHeading⟩ files name).1 = .missing) ∧
    (¬Files.ShortEnough c.templateDir (name ++ ".lua") →
      (pageFiles ⟨c.templateDir, c.defaultHeading⟩ files name).1 = .broken) := by
  have hending : ".lua" ∈ [".lua", ".json"] := by decide
  have hname := h.isName hending
  have hnul := h.nul_not_mem hending
  unfold pageFiles PageHandler.templatePath
  constructor
  · intro hshort
    rw [Files.readText_absent hname hnul hdir habsent hshort]
  · intro hlong
    rw [Files.readText_long hname hnul hdir hlong]

private theorem pageFiles_without_variables (h : PlainName name)
    (hdir : files.resolve c.templateDir = .ok (place, .directory)) {script : String}
    (hscript : files.readText (Path.join c.templateDir (name ++ ".lua")) = .ok script)
    (habsent : files.child? place (name ++ ".json") = none) :
    (Files.ShortEnough c.templateDir (name ++ ".json") →
      (pageFiles ⟨c.templateDir, c.defaultHeading⟩ files name).1 =
        .usable script [("heading", .string c.defaultHeading)]) ∧
    (¬Files.ShortEnough c.templateDir (name ++ ".json") →
      (pageFiles ⟨c.templateDir, c.defaultHeading⟩ files name).1 = .broken) := by
  have hending : ".json" ∈ [".lua", ".json"] := by decide
  have hname := h.isName hending
  have hnul := h.nul_not_mem hending
  unfold pageFiles PageHandler.templatePath PageHandler.variablesPath
  rw [hscript]
  constructor
  · intro hshort
    rw [Files.readText_absent hname hnul hdir habsent hshort]
    rfl
  · intro hlong
    rw [Files.readText_long hname hnul hdir hlong]

end

/-- An absent file is no error exactly if it could be there: a page without a template is not found, and
one without variables is rendered with the standard heading alone, as long as the names of the files have
at most 255 bytes and their paths at most 4095. -/
theorem absent_files_answer (c : Config) (start files : Files) (port : Option Nat) (peer : String)
    (s : State) {place : Option Location}
    (hdir : files.resolve c.templateDir = .ok (place, .directory)) {name : String}
    (hname : PlainName name) {r : Request} (hget : r.method = "GET")
    (hsegments : r.segments = [name] ∨ r.segments = [] ∧ name = "home") :
    let app := Application.ofConfig c start port
    let out := (app.respond files peer r).run s
    let fits (ending : String) : Prop :=
      (Path.join c.templateDir (name ++ ending)).utf8ByteSize ≤ 4095 ∧
        name.length + ending.length ≤ 255
    (files.child? place (name ++ ".lua") = none →
      (out.1 = .errorPage .notFound ↔ fits ".lua") ∧
      (out.1 = .errorPage .internalError ↔ ¬fits ".lua") ∧ out.2.pool = s.pool) ∧
    ∀ script, files.readText (Path.join c.templateDir (name ++ ".lua")) = .ok script →
      files.child? place (name ++ ".json") = none →
      (fits ".json" →
        let rendered := pageAnswer app.registry files s.pool
          (.usable script [("heading", .string c.defaultHeading)])
        out.1 = rendered.1 ∧ out.2.pool = rendered.2) ∧
      (¬fits ".json" → out.1 = .errorPage .internalError ∧ out.2.pool = s.pool) := by
  intro app out fits
  obtain ⟨hresponse, hpool⟩ :=
    respond_page c start files port peer s hget (hname.pageName? hsegments)
  change out.1 = _ at hresponse
  change out.2.pool = _ at hpool
  have hfits {ending : String} (hending : ending ∈ [".lua", ".json"]) :
      Files.ShortEnough c.templateDir (name ++ ending) ↔ fits ending :=
    shortEnough_iff hname c.templateDir hending
  have hdiffer : Response.errorPage .notFound ≠ .errorPage .internalError := by decide
  constructor
  · intro habsent
    have hfiles := pageFiles_without_template c hname hdir habsent
    rw [hfits (by decide)] at hfiles
    by_cases hfit : fits ".lua"
    · rw [hfiles.1 hfit] at hresponse hpool
      rw [hresponse, hpool]
      simp only [pageAnswer, hfit, not_true_eq_false, iff_false, true_and, and_true]
      exact hdiffer
    · rw [hfiles.2 hfit] at hresponse hpool
      rw [hresponse, hpool]
      simp only [pageAnswer, hfit, not_false_eq_true, iff_false, and_true]
      exact hdiffer.symm
  · intro script hscript habsent
    have hfiles := pageFiles_without_variables c hname hdir hscript habsent
    rw [hfits (by decide)] at hfiles
    constructor
    · intro hfit
      rw [hfiles.1 hfit] at hresponse hpool
      exact ⟨hresponse, hpool⟩
    · intro hlong
      rw [hfiles.2 hlong] at hresponse hpool
      exact ⟨hresponse, hpool⟩

/-- A page that nobody wrote, and one without variables. -/
theorem absent_files_answer_unwritten :
    let files : Files := ⟨[(["templates", "about.lua"], .file (Bytes.ofText "return Div")),
      (["templates"], .directory)]⟩
    let app := Application.ofConfig .standard files none
    let s := State.ofPool (.new 20)
    files.resolve Config.standard.templateDir = .ok (some ["templates"], .directory) ∧
      PlainName "nope" ∧ files.child? (some ["templates"]) ("nope" ++ ".lua") = none ∧
      ((app.respond files "peer" ⟨"GET", "/" ++ "nope"⟩).run s).1 = .errorPage .notFound ∧
      PlainName "about" ∧ files.child? (some ["templates"]) ("about" ++ ".json") = none ∧
      ((app.respond files "peer" ⟨"GET", "/" ++ "about"⟩).run s).1 =
        (pageAnswer app.registry files s.pool
          (.usable "return Div" [("heading", .string Config.standard.defaultHeading)])).1 := by
  intro files app s
  have hdir : files.resolve Config.standard.templateDir =
      .ok (some ["templates"], .directory) := by decide +kernel
  have hnope : PlainName "nope" := .of_all (by decide) (by decide)
  have habout : PlainName "about" := .of_all (by decide) (by decide)
  have htemplate : files.child? (some ["templates"]) ("nope" ++ ".lua") = none := by decide +kernel
  have hvariables : files.child? (some ["templates"]) ("about" ++ ".json") = none := by
    decide +kernel
  have hscript : files.readText (Path.join Config.standard.templateDir ("about" ++ ".lua")) =
      .ok "return Div" := by decide +kernel
  obtain ⟨hmissing, -, -⟩ := (absent_files_answer .standard files files none "peer" s hdir hnope
    (r := ⟨"GET", "/" ++ "nope"⟩) rfl (.inl (hnope.segments_eq "GET"))).1 htemplate
  obtain ⟨hrendered, -⟩ := (absent_files_answer .standard files files none "peer" s hdir habout
    (r := ⟨"GET", "/" ++ "about"⟩) rfl (.inl (habout.segments_eq "GET"))).2 _ hscript hvariables
  refine ⟨hdir, hnope, htemplate, hmissing.mpr ⟨by decide +kernel, by decide⟩, habout, hvariables, ?_⟩
  exact (hrendered ⟨by decide +kernel, by decide⟩).1

/-- The file of a page with a name of 252 characters would have one character too many, so a page of that
name, which nobody can have written, is an internal error. -/
theorem long_name_is_error :
    let name := String.ofList (List.replicate 252 'a')
    let files : Files := ⟨[(["templates"], .directory)]⟩
    let r : Request := ⟨"GET", "/" ++ name⟩
    let app := Application.ofConfig .standard files none
    files.resolve "templates" = .ok (some ["templates"], .directory) ∧
      PlainName name ∧ r.segments = [name] ∧
      files.child? (some ["templates"]) (name ++ ".lua") = none ∧
      ((app.respond files "peer" r).run (.ofPool (.new 20))).1 = .errorPage .internalError ∧
      Response.errorPage .internalError ≠ .errorPage .notFound := by
  intro name files r app
  have hdir : files.resolve "templates" = .ok (some ["templates"], .directory) := by decide +kernel
  have hchars : name.toList = List.replicate 252 'a' := String.toList_ofList
  have hname : PlainName name := by
    constructor
    · intro hempty
      rw [hempty] at hchars
      cases hchars
    · intro c hc
      rw [hchars] at hc
      rw [List.eq_of_mem_replicate hc]
      decide
  have hlength : name.length = 252 := by
    rw [← String.length_toList, hchars, List.length_replicate]
  have hsegments : r.segments = [name] := hname.segments_eq "GET"
  have habsent : files.child? (some ["templates"]) (name ++ ".lua") = none := by decide +kernel
  have hlong : ¬Files.ShortEnough "templates" (name ++ ".lua") := by
    rw [shortEnough_iff hname _ (by decide)]
    rintro ⟨-, hlast⟩
    rw [hlength] at hlast
    exact absurd hlast (by decide)
  obtain ⟨hresponse, -⟩ := respond_page .standard files files none "peer" (.ofPool (.new 20))
    (r := r) rfl (hname.pageName? (.inl hsegments))
  rw [(pageFiles_without_template .standard hname hdir habsent).2 hlong] at hresponse
  exact ⟨hdir, hname, hsegments, habsent, hresponse, by decide⟩

end Server

end Pagewright
