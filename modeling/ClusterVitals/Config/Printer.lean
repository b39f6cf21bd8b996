import ClusterVitals.Config.Basic
import ClusterVitals.Duration.Written
import ClusterVitals.Toml.Printer

/-!
# Settings as a TOML document

The document with all settings, one table for each group in a fixed order. Reading it back gives the
same settings.
-/

namespace ClusterVitals

/-- A table of a document: its name and its entries in written form. -/
structure Config.Section where
  name : String
  entries : List (String × String)

namespace Config

/-- A duration in its written form between quotes. -/
def durationText (d : Duration) : String := Toml.renderText d.written

/-- The tables of the document. -/
def sections (c : Config) : List Section := [
  ⟨"certificate", [
    ("namespace", Toml.renderText c.certificate.ns),
    ("secret_name", Toml.renderText c.certificate.secretName),
    ("recheck_interval", durationText c.certificate.recheckInterval)]⟩,
  ⟨"reconcile", [
    ("timeout", durationText c.reconcile.timeout),
    ("max_concurrent", toString c.reconcile.maxConcurrent),
    ("queue_capacity", toString c.reconcile.queueCapacity)]⟩,
  ⟨"reconcile.backoff", [
    ("initial_delay", durationText c.reconcile.backoff.initialDelay),
    ("max_delay", durationText c.reconcile.backoff.maxDelay),
    ("multiplier", Toml.renderFloat c.reconcile.backoff.multiplier)]⟩,
  ⟨"logging", [
    ("filter", Toml.renderText c.logging.filter),
    ("format", Toml.renderText c.logging.format.text)]⟩,
  ⟨"export", c.exposition.namePrefix.toList.map fun p => ("prefix", Toml.renderText p)⟩]

/-- A table under its header, an entry a line. -/
def Section.text (s : Section) : String :=
  "[" ++ s.name ++ "]\n" ++ String.join (s.entries.map fun (name, value) =>
    name ++ " = " ++ value ++ "\n")

/-- The document, with an empty line between two tables. -/
def render (c : Config) : String := "\n".intercalate (c.sections.map Section.text)

end Config

end ClusterVitals
