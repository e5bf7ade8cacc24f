import Lectern.Proofs.Json.Record
import Lectern.Proofs.Json.RoundTrip
import Lectern.Proofs.Text.Utf8
import Lectern.Site.Build

/-!
# What a Manifest Says

A manifest is read by those who show the site: it is a JSON document whose members tell the title,
the description and the version, and whose pages are listed with their paths and titles. Here it is
read in just this way, by the names of its members and from its bytes, and what is read is what the
manifest was made of.

## Main results

* `PageEntry.ofJson?_toJson`: a page in the list.
* `Manifest.read?_manifest`: the whole manifest.
-/

namespace Lectern.Site

/-! ### Reading -/

/-- What a **manifest** says about a site. -/
structure Manifest where
  title : Text
  description : Text
  version : Text
  pages : List PageEntry
deriving DecidableEq, Repr

/-- The page that an object in the list of pages stands for. -/
def PageEntry.ofJson? (document : Json) : Option PageEntry := do
  let path ← document.member? "path".toList
  let title ← document.member? "title".toList
  some { path := ← path.text?, title := ← title.text? }

/-- The manifest that a document stands for. -/
def Manifest.ofJson? (document : Json) : Option Manifest := do
  let title ← document.member? "title".toList
  let description ← document.member? "description".toList
  let version ← document.member? "version".toList
  let pages ← document.member? "pages".toList
  some
    { title := ← title.text?
      description := ← description.text?
      version := ← version.text?
      pages := ← (← pages.elements?).mapM PageEntry.ofJson? }

/-- The manifest in the **bytes of a file**. -/
def Manifest.read? (bytes : Bytes) : Option Manifest :=
  ((Text.decode? bytes).bind Json.parse?).bind Manifest.ofJson?

/-! ### Reading what was written -/

/-- The members of a page by their names. -/
theorem PageEntry.member?_toJson (entry : PageEntry) :
    entry.toJson.member? "path".toList = some (.ofText entry.path) ∧
      entry.toJson.member? "title".toList = some (.ofText entry.title) := by
  have hmember : ∀ member ∈
      [("path".toList, Json.ofText entry.path), ("title".toList, Json.ofText entry.title)],
      entry.toJson.member? member.1 = some member.2 := fun member hmem => by
    refine Json.member?_ofMembers ?_ hmem
    change ["path".toList, "title".toList].Nodup
    decide
  exact ⟨hmember _ (.head _), hmember _ (.tail _ (.head _))⟩

/-- **A page** is read back from the list. -/
theorem PageEntry.ofJson?_toJson (entry : PageEntry) : ofJson? entry.toJson = some entry := by
  obtain ⟨hpath, htitle⟩ := entry.member?_toJson
  rw [ofJson?, hpath, htitle]
  rfl

/-- The members of a manifest by their names. -/
theorem member?_manifest (site : Site) (version : Text) (pages : List PageEntry) :
    (manifest site version pages).member? "title".toList = some (.ofText site.title) ∧
      (manifest site version pages).member? "description".toList =
        some (.ofText site.description) ∧
      (manifest site version pages).member? "version".toList = some (.ofText version) ∧
      (manifest site version pages).member? "pages".toList =
        some (.array (pages.map PageEntry.toJson)) := by
  have hmember : ∀ member ∈ [("title".toList, Json.ofText site.title),
      ("description".toList, Json.ofText site.description),
      ("version".toList, Json.ofText version),
      ("pages".toList, Json.array (pages.map PageEntry.toJson))],
      (manifest site version pages).member? member.1 = some member.2 := fun member hmem => by
    refine Json.member?_ofMembers ?_ hmem
    change ["title".toList, "description".toList, "version".toList, "pages".toList].Nodup
    decide
  exact ⟨hmember _ (.head _), hmember _ (.tail _ (.head _)),
    hmember _ (.tail _ (.tail _ (.head _))), hmember _ (.tail _ (.tail _ (.tail _ (.head _))))⟩

/-- **A manifest** is read back from its document. -/
theorem Manifest.ofJson?_manifest (site : Site) (version : Text) (pages : List PageEntry) :
    ofJson? (manifest site version pages) =
      some { title := site.title, description := site.description, version, pages } := by
  obtain ⟨htitle, hdescription, hversion, hpages⟩ := member?_manifest site version pages
  have hread : (pages.map PageEntry.toJson).mapM PageEntry.ofJson? = some pages := by
    rw [List.mapM_map]
    exact (mapM_eq_some_map fun entry _ => entry.ofJson?_toJson).trans
      (congrArg some (List.map_id' pages))
  rw [ofJson?, htitle, hdescription, hversion, hpages]
  simp only [Option.bind_eq_bind, Option.bind_some, Json.ofText, Json.text?, Json.elements?, hread]

/-- **The manifest of a site** says of it what it is made of: its title and its description, the
version, and one entry for each page, in order. -/
theorem Manifest.read?_manifest (site : Site) (version : Text) (pages : List PageEntry) :
    read? (Text.encode (manifest site version pages).pretty) =
      some { title := site.title, description := site.description, version, pages } := by
  have htext : Text.decode? (Text.encode (manifest site version pages).pretty) =
      some (manifest site version pages).pretty := Text.decode?_eq_some_iff.2 rfl
  rw [read?, htext, Option.bind_some, Json.parse?_pretty, Option.bind_some,
    ofJson?_manifest]

end Lectern.Site
