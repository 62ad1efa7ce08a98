import SimpleCdn.Control.Certificates
import SimpleCdn.Store.NodeOps

/-!
# The uninstall handlers

Before a token is issued, or an uninstall is completed by force, the handlers ask for the blockers
of the workflow: sites that still list the node, affected sites whose publication still does, and
affected sites that would be left without an active node.  They read the workflow, the sites, the
publications and the nodes one after the other, so what they decide on is a list of earlier reads;
`active` stands for what the reads of the nodes have found.
-/

namespace SimpleCdn

/-- `uninstallDNSWait`: 75 seconds. -/
def uninstallDNSWait : Nat := 75 * second

/-- `uninstallTokenLifetime`: 30 minutes. -/
def uninstallTokenLifetime : Nat := 30 * 60 * second

structure NodeUninstallBlocker where
  code : String
  siteID : String
  siteName : String
  detail : String
  deriving DecidableEq, Repr

def stillAssigned (site : Site) : NodeUninstallBlocker :=
  ⟨"still_assigned", site.id, site.name, "remove this node from the site"⟩

def siteNotPublished (site : Site) : NodeUninstallBlocker :=
  ⟨"site_not_published", site.id, site.name, "publish the site after removing this node"⟩

def noActiveNode (site : Site) : NodeUninstallBlocker :=
  ⟨"no_active_node", site.id, site.name,
    "assign and publish another active node, or disable the site"⟩

/-- The site is served without an active node. -/
def servingBlocker (active : String → Bool) (site live : Site) : Option NodeUninstallBlocker :=
  if live.enabled && !live.nodes.any active then some (noActiveNode site) else none

/-- What an affected site blocks. -/
def affectedBlocker (nodeID : String) (sites : List Site) (publications : List SitePublication)
    (active : String → Bool) (siteID : String) : Option NodeUninstallBlocker :=
  match sites.find? fun site => site.id = siteID with
  | none => none
  | some site =>
    if siteHasNode site nodeID then none
    else
      match publications.find? fun publication => publication.site.id = siteID with
      | some publication =>
        if siteHasNode publication.site nodeID then some (siteNotPublished site)
        else servingBlocker active site publication.site
      | none =>
        if site.published = false then some (siteNotPublished site)
        else servingBlocker active site site

/-- The blockers of `buildNodeUninstallStatus`. -/
def uninstallBlockers (nodeID : String) (job : NodeUninstallJob) (sites : List Site)
    (publications : List SitePublication) (active : String → Bool) : List NodeUninstallBlocker :=
  (sites.filter fun site => siteHasNode site nodeID).map stillAssigned ++
    job.affectedSiteIDs.filterMap (affectedBlocker nodeID sites publications active)

def readyInSeconds (job : NodeUninstallJob) (now : Time) : Nat :=
  (job.readyAt - now + second - 1) / second

/-- `CanGenerateCommand`; a canceled workflow has no blockers, and no command either. -/
def canGenerateCommand (job : NodeUninstallJob) (blockers : List NodeUninstallBlocker)
    (now : Time) : Bool :=
  blockers.isEmpty && readyInSeconds job now = 0 && Store.uninstallJobWaits job.status

/-- The prerequisites of `forceCompleteNodeUninstall`; `nodeUninstallJobActive` lists the same
statuses as the store. -/
def canForceComplete (job : NodeUninstallJob) (blockers : List NodeUninstallBlocker)
    (now : Time) : Bool :=
  job.status.blocksStatus && blockers.isEmpty && readyInSeconds job now = 0

section

variable {nodeID : String} {job : NodeUninstallJob} {sites : List Site}
  {publications : List SitePublication} {active : String → Bool}

theorem siteHasNode_iff {site : Site} : siteHasNode site nodeID = true ↔ nodeID ∈ site.nodes := by
  simp [siteHasNode]

/-- Without blockers no draft lists the node, and neither does the publication of an affected
site that still exists. -/
theorem unlisted_of_no_blockers
    (h : uninstallBlockers nodeID job sites publications active = []) :
    (∀ site ∈ sites, nodeID ∉ site.nodes) ∧
      ∀ siteID ∈ job.affectedSiteIDs, (∃ site ∈ sites, site.id = siteID) →
        ∀ publication, publications.find? (fun publication => publication.site.id = siteID) =
          some publication → nodeID ∉ publication.site.nodes := by
  obtain ⟨hsites, haffected⟩ := List.append_eq_nil_iff.mp h
  have hdrafts : ∀ site ∈ sites, siteHasNode site nodeID = false := by
    intro site hsite
    have hnone := List.filter_eq_nil_iff.mp (List.map_eq_nil_iff.mp hsites) site hsite
    simpa using hnone
  refine ⟨fun site hsite hmem => ?_, fun siteID hsiteID hexists publication hpublication hmem => ?_⟩
  · have hnot := hdrafts site hsite
    rw [siteHasNode_iff.mpr hmem] at hnot
    cases hnot
  · have hblocker := List.filterMap_eq_nil_iff.mp haffected siteID hsiteID
    unfold affectedBlocker at hblocker
    split at hblocker
    · next hnone =>
      obtain ⟨site, hsite, hid⟩ := hexists
      have hne := List.find?_eq_none.mp hnone site hsite
      simp [hid] at hne
    · next site hfind =>
      have hnot := hdrafts site (List.mem_of_find?_eq_some hfind)
      rw [if_neg (by rw [hnot]; nofun), hpublication] at hblocker
      simp only [siteHasNode_iff.mpr hmem, if_true] at hblocker
      cases hblocker

end

end SimpleCdn
