import IotHome.Proofs.CmdMiddleware
import IotHome.Server.StaticFiles

/-!
# Which files the two servers of pages open

The pages of the command explorer are looked for under the last name of the
path if it has an extension, and dots alone have none. The home page looks
under the last name of a text that was decoded behind the route, and that name
can be two dots, one, or nothing when there are only slashes. So what both open
is directly in their directories just if it is not (`staticFiles_confined_iff`).
-/

namespace IotHome.Server

open IotHome.Lib
open IotHome.Lib.PosixPath (IsName noSlash_segments)
open IotHome.Lib.NodePath (DirectlyBelow)

variable {ρ : Type} (site : Cmd.Site ρ) (homepage : StaticHomePage)

/-- The file that `serveStaticCmdUi` opens for a request. -/
def openedPath (url : JsString) : Option JsString :=
  match site.parseUrl url with
  | none => none
  | some { pathname, .. } =>
      if Cmd.isBelowCmd pathname then some (Cmd.searchedFile site pathname)
      else none

/-- What both open for a request is one name in the directory. -/
structure Confined (url : JsString) : Prop where
  cmdUi : ∀ path, openedPath site url = some path →
    DirectlyBelow site.fileStaticPath path
  homepage : ∀ path, homepage.getPageStaticFilesPath url = some path →
    DirectlyBelow homepage.localStaticFilesPath path

/-- What is opened is all that the answer depends on. -/
theorem serveStaticCmdUi_openedPath (url : JsString)
    (openFile : JsString → Cmd.FileOutcome)
    (h : ∀ path, openedPath site url = some path →
      openFile path = site.openFile path) :
    Cmd.serveStaticCmdUi { site with openFile } url =
      Cmd.serveStaticCmdUi site url := by
  rw [openedPath] at h
  rw [Cmd.serveStaticCmdUi, Cmd.serveStaticCmdUi]
  cases hurl : site.parseUrl url with
  | none => rfl
  | some parsed =>
      obtain ⟨pathname, args⟩ := parsed
      rw [hurl] at h
      simp only at h ⊢
      split
      · next hbelow =>
          have hpage : Cmd.page { site with openFile } pathname =
              Cmd.page site pathname :=
            h _ (if_pos hbelow)
          rw [hpage]
      · rfl

theorem noSlash_base (path : JsString) : unit '/' ∉ PosixPath.base path := by
  rw [PosixPath.base]
  cases hlast : ((PosixPath.segments path).filter (· ≠ [])).getLast? with
  | none => exact List.not_mem_nil
  | some name =>
      exact noSlash_segments (List.mem_filter.1 (List.mem_of_getLast? hlast)).1

theorem isName_of_ext {base : JsString} (hslash : unit '/' ∉ base)
    (hext : PosixPath.ext base ≠ []) : IsName base := by
  refine ⟨?_, ?_, ?_, hslash⟩
  · rintro rfl
    exact hext (by decide)
  · rintro rfl
    exact hext (by decide)
  · rintro rfl
    exact hext (by decide)

theorem isName_pageName (pathname : JsString) :
    IsName (Cmd.pageName pathname).1 := by
  rw [Cmd.pageName]
  split
  · next hext => exact isName_of_ext (noSlash_base pathname) hext
  · exact ⟨by decide, by decide, by decide, by decide⟩

theorem openedPath_confined {url path : JsString}
    (h : openedPath site url = some path) :
    DirectlyBelow site.fileStaticPath path := by
  rw [openedPath] at h
  cases hurl : site.parseUrl url with
  | none =>
      rw [hurl] at h
      cases h
  | some parsed =>
      obtain ⟨pathname, args⟩ := parsed
      rw [hurl] at h
      simp only at h
      split at h
      · injection h with h
        rw [← h]
        exact ⟨_, isName_pageName pathname,
          NodePath.join_name (isName_pageName pathname)⟩
      · cases h

/-- What both servers open is directly in their directories just if the last
name of the decoded parameter is a name. -/
theorem staticFiles_confined_iff (url : JsString) :
    Confined site homepage url ↔
      ∀ filename, homepage.filenameParam url = some filename →
        NodePath.basename filename ≠ [] ∧
          NodePath.basename filename ≠ js "." ∧
          NodePath.basename filename ≠ js ".." := by
  constructor
  · intro h filename hfilename
    have hbelow := h.homepage _ (congrArg (Option.map _) hfilename)
    exact (NodePath.directlyBelow_iff (noSlash_base filename)).1 hbelow
  · intro h
    refine ⟨fun path hpath => openedPath_confined site hpath, ?_⟩
    intro path hpath
    obtain ⟨filename, hfilename, rfl⟩ := Option.map_eq_some_iff.1 hpath
    exact (NodePath.directlyBelow_iff (noSlash_base filename)).2
      (h filename hfilename)

/-- Two encoded dots lead to the directory above. -/
theorem not_staticFiles_confined :
    ¬ ∀ (site : Cmd.Site Nat) (homepage : StaticHomePage) (url : JsString),
      Confined site homepage url := by
  intro h
  have hconfined :=
    h Cmd.emptySite ⟨some, js "dist/static"⟩ (js "%2e%2e")
  have hread : StaticHomePage.getPageStaticFilesPath ⟨some, js "dist/static"⟩
      (js "%2e%2e") = some (NodePath.join (js "dist/static") (js "..")) := by
    decide +kernel
  have hbelow := hconfined.homepage _ hread
  exact ((NodePath.directlyBelow_iff (by decide)).1 hbelow).2.2 rfl

end IotHome.Server
