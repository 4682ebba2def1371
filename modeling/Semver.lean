import Semver.Main
import Semver.Json.Codec
import Semver.Proofs.Bound.Grammar
import Semver.Proofs.Bound.Position
import Semver.Proofs.Bound.Spelling
import Semver.Proofs.Comparator.Synonyms
import Semver.Proofs.ParseError.Place
import Semver.Proofs.Segment.Grammar
import Semver.Proofs.Segment.Rows
import Semver.Proofs.Version.Display
import Semver.Proofs.Version.Grammar
import Semver.Proofs.Version.Numeric
import Semver.Proofs.Requirement.Composition
import Semver.Proofs.Requirement.Display
import Semver.Proofs.Requirement.HalfOpen
import Semver.Proofs.Requirement.Order
import Semver.Proofs.Requirement.Outcome
import Semver.Proofs.Requirement.PreRelease
import Semver.Proofs.Requirement.Relational
import Semver.Proofs.Requirement.Releases
import Semver.Proofs.Requirement.Widening
