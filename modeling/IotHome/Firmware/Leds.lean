import IotHome.Firmware.Httpd

/-!
# The pages with the leds

`cgi.cpp`, but for `/api`. A request for one of the two pages turns all four
leds off and then on those that it names, one write after the other, so a
request that faults in between has made some of them.
-/

namespace IotHome.Firmware

def LED1 : Nat := 2
def LED2 : Nat := 3
def LED3 : Nat := 4
def LED4 : Nat := 5
def LED9 : Nat := 10

/-- `Led_On` -/
def ledOn (g : Gpio) (led : Nat) : Gpio := g.gpioPut led true

/-- `Led_Off` -/
def ledOff (g : Gpio) (led : Nat) : Gpio := g.gpioPut led false

def Gpio.gpioInit (g : Gpio) (pin : Nat) : Gpio :=
  (g.gpioSetDir pin false).gpioPut pin false

/-- `cgi_init` -/
def cgiInit (g : Gpio) : Gpio :=
  (List.range' LED1 (LED9 + 1 - LED1)).foldl
    (fun g i => ((g.gpioInit i).gpioSetDir i true).gpioPut i false) g

/-- One turn of the loop over the parameters. -/
def ledParam (name value : CharPtr) (g : Gpio) : Except Fault Gpio := do
  if ← strcmpEq name "led" then
    if ← strcmpEq value "1" then pure (ledOn g LED1)
    else if ← strcmpEq value "2" then pure (ledOn g LED2)
    else if ← strcmpEq value "3" then pure (ledOn g LED3)
    else if ← strcmpEq value "4" then pure (ledOn g LED4)
    else pure g
  else
    pure g

def ledLoop (pcParam pcValue : Nat → CharPtr) :
    (left i : Nat) → Gpio → Except Fault Gpio
  | 0, _, g => pure g
  | left + 1, i, g => do
      let g ← ledParam (pcParam i) (pcValue i) g
      ledLoop pcParam pcValue left (i + 1) g

/-- What the two handlers do, and the page they name. -/
def cgiHandler (page : String) (r : Request) (g : Gpio) :
    Except Fault (Gpio × String) := do
  let g := ledOff (ledOff (ledOff (ledOff g LED1) LED2) LED3) LED4
  let g ← ledLoop r.pcParam r.pcValue r.iNumParams 0 g
  pure (g, page)

/-- `cgi_handler_basic` -/
def cgiHandlerBasic := cgiHandler "/cgi.html"

/-- `cgi_handler_extended` -/
def cgiHandlerExtended := cgiHandler "/ssi_cgi.shtml"

end IotHome.Firmware
