import OpenFlow.Bucket
import OpenFlow.Main
import OpenFlow.Octets.ReaderStack
import OpenFlow.Octets.Writer
import OpenFlow.Proofs.KeyedSet.Replacing
import OpenFlow.Proofs.KeyedSet.Canonical
import OpenFlow.Proofs.Oxm.Chain
import OpenFlow.Proofs.Pace.Families
import OpenFlow.Proofs.Recoding.Lists
import OpenFlow.Proofs.Recoding.Match
import OpenFlow.Proofs.RoundTrip.Match
import OpenFlow.Proofs.RoundTrip.PaddingIncluded
import OpenFlow.Proofs.RoundTrip.TableProperty
import OpenFlow.Proofs.Octets.Steady
import OpenFlow.Proofs.Skipping.UnknownOnly
import OpenFlow.Proofs.Octets.Trail
import OpenFlow.Proofs.Sequence.Detached
import OpenFlow.Proofs.Sequence.Joining
import OpenFlow.Proofs.Sequence.Lenient
import OpenFlow.Proofs.Sequence.Cutting
import OpenFlow.Proofs.KeyedSet.Agreeing
import OpenFlow.Proofs.Octets.Announcing
import OpenFlow.Proofs.Writing.Exact
import OpenFlow.Proofs.Writing.Whole
import OpenFlow.Proofs.Octets.Parsing
import OpenFlow.Proofs.Scanning.Grammar
import OpenFlow.Proofs.Scanning.Agreement
import OpenFlow.Proofs.KeyedSet.Order
import OpenFlow.Proofs.Capture.Tiling
import OpenFlow.Proofs.Capture.Agreement
import OpenFlow.Proofs.Failing.Families
import OpenFlow.Proofs.Validation.Travel
import OpenFlow.Proofs.Capture.HexText
import OpenFlow.Proofs.Octets.Nesting
import OpenFlow.Proofs.Dispatch.Announced
import OpenFlow.Proofs.Dispatch.Typed
import OpenFlow.Proofs.Validation.Ids
