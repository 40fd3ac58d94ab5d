import PicoosLwip.Dhcps.Handshake
import PicoosLwip.Dhcps.ReadBounds
import PicoosLwip.Dhcps.Dispatch
import PicoosLwip.Dhcps.Disclosure
import PicoosLwip.Dhcps.ArpAgreement
import PicoosLwip.Sockets.Leaks
import PicoosLwip.Netif.AddressLatch
import PicoosLwip.Dhcps.LifeCycle
import PicoosLwip.SysArch.Clock
import PicoosLwip.Dhcps.PadOptions
import PicoosLwip.Dhcps.LostSlots
import PicoosLwip.Dhcps.ReplyFormat
import PicoosLwip.Netif.Receive
import PicoosLwip.Netif.TapReceive
import PicoosLwip.Netif.ReceiveLoop
import PicoosLwip.Netif.GiveBack
import PicoosLwip.SysArch.Wait
import PicoosLwip.Netif.PinProtocol
import PicoosLwip.Dhcps.Ownership
import PicoosLwip.Dhcps.AddressPool
import PicoosLwip.Netif.TapThread
import PicoosLwip.Netif.TapLink
import PicoosLwip.Netif.ChipInit
import PicoosLwip.SysArch.Mailbox
import PicoosLwip.Dhcps.Control
import PicoosLwip.Dhcps.Conversation
import PicoosLwip.Sockets.Threads
import PicoosLwip.Netif.ChipDelivery
import PicoosLwip.Netif.ChipThread
