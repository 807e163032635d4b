import Delegations.Main
import Delegations.Proofs.BigEndian
import Delegations.Proofs.Reading
import Delegations.Proofs.Writing
import Delegations.Proofs.VarNumber
import Delegations.Proofs.NonNegativeInteger
import Delegations.Proofs.Element
import Delegations.Proofs.Framing
import Delegations.Proofs.Cursor
import Delegations.Proofs.Element.Extent
import Delegations.Proofs.Element.Splitting
import Delegations.Proofs.Name
import Delegations.Proofs.Delegation
import Delegations.Proofs.Order
import Delegations.Proofs.Text.WhiteSpace
import Delegations.Proofs.Text.Hex
import Delegations.Proofs.Text.Percent
import Delegations.Proofs.Text.Decimal
import Delegations.Proofs.Text.Lines
import Delegations.Proofs.Name.Uri
import Delegations.Proofs.Name.Decoding
import Delegations.Proofs.DelegationList.Loading
import Delegations.Proofs.DelegationList.Reachable
import Delegations.Proofs.DelegationList.Forms
import Delegations.Proofs.DelegationList.RoundTrip
import Delegations.Proofs.DelegationList.Editing
import Delegations.Proofs.DelegationList.Frame
import Delegations.Proofs.DelegationList.Repeats
import Delegations.Proofs.DelegationList.Outcome
import Delegations.Proofs.Sizing
import Delegations.Proofs.DelegationList.Prepending
import Delegations.Proofs.WireOrder
import Delegations.Proofs.Name.Prefix
import Delegations.Proofs.Buffer
import Delegations.Proofs.Listing.Reading
import Delegations.Proofs.Listing
import Delegations.Proofs.Listing.Faults
import Delegations.Proofs.Listing.Layout
import Delegations.Proofs.DelegationList.Parts
import Delegations.Proofs.DelegationList.Rendering
import Delegations.Proofs.Filling
import Delegations.Proofs.Name.Query
import Delegations.Proofs.VarNumber.Code
import Delegations.Proofs.Text.Escapes
import Delegations.Proofs.Component.Escapes
import Delegations.Proofs.Command
